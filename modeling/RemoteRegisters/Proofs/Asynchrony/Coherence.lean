import RemoteRegisters.Proofs.Asynchrony.Conversation

/-!
# What can be seen of a conversation

In each state that any order of calls leads to, the session has carried out a
prefix of the requests that the bridge has started, and the way back carries the
response to one read at most. When a read completes, both queues are empty and its
value is what the registers hold at this point. And the two parties never wait for
each other: a conversation makes no further step only when all accesses are
answered and carried out.
-/

namespace RemoteRegisters

namespace Conversation

open Dialogue

variable {m : RegisterMap} {cs : List Call} {s s' : Conversation}

namespace Sound

/-- Where nothing is under way to a session that waits, it has carried out all that was started. -/
theorem caught_up (h : s.Sound m cs) {n : Nat} (hturn : s.far.control.turn = .receive n)
    (hrequests : s.requests = []) (hunsent : s.near.transfer.unsent = []) :
    s.far.control.served = s.near.control.started ∧ s.begun = [] ∧
      s.far.transfer.unsent = [] := by
  obtain ⟨rest, hstarted, hrest⟩ := h.served_prefix
  rw [hrequests, hunsent, List.append_nil, List.append_nil] at hrest
  obtain ⟨hfarUnsent, hlen⟩ := h.far_proper.of_receive hturn
  obtain ⟨hwait, hdemand⟩ := Session.waiting_of_turn_receive hturn
  -- what a waiting session has of a frame is no frame yet
  have hshort := Session.Phase.decode_begun_append hwait (hdemand ▸ hlen)
  rw [← begun, hrest] at hshort
  cases rest with
  | nil => exact ⟨by rw [hstarted, List.append_nil], hrest, hfarUnsent⟩
  | cons q rest =>
    rw [List.flatMap_cons, Request.decode_encode_append] at hshort
    cases hshort

/-- The one read that the bridge waits for is completed. -/
theorem completed (h : s.Sound m cs) (hstep : s.Step s') {p : PlacedCall}
    {isRead : p.call.operation = .read} {pending : List Call}
    (hstage : s.near.control.stage = .awaiting p isRead pending)
    (hchange : s'.near.control ≠ s.near.control) :
    s'.requests = [] ∧ s'.responses = [] ∧ s'.begun = [] ∧ s'.far.transfer.unsent = [] ∧
      s'.far.control.served = s.near.control.started ∧
      ∃ later, s'.near.control.answers =
        s.near.control.answers ++
          .ok (some (s'.far.control.registers.read p.placement.offset p.placement.width)) ::
            later := by
  have hturn : s.near.control.turn = .receive p.placement.width.bytes := by
    simp only [Agenda.turn, hstage]
  cases hstep with
  | far _ => exact absurd rfl hchange
  | near hadvances =>
    obtain ⟨-, heffect⟩ := hadvances.effect h.near_proper
    cases heffect with
    | underway => exact absurd rfl hchange
    | sent hsend => cases hturn.symm.trans hsend
    | @received bytes _ hreceive hunsent hbytes =>
      have hlen : bytes.length = p.placement.width.bytes :=
        Turn.receive.inj (hreceive.symm.trans hturn)
      obtain ⟨hserved, hqueue, hfar, hvalue⟩ := h.whole_response hstage hlen hbytes
      have hrest := h.frames_eq
      rw [hserved, hunsent, List.append_nil] at hrest
      obtain ⟨hbegun, hrequests⟩ :=
        List.append_eq_nil_iff.mp (List.append_right_eq_self.mp hrest)
      refine ⟨hrequests, hqueue, hbegun, hfar, hserved, ?_⟩
      have hregisters : s.far.control.registers =
          (RegisterFile.ofMap m).applyAll (Call.requests s.near.control.done) := by
        rw [h.books.registers_eq, hserved, Agenda.started, Agenda.request?_of_awaiting hstage,
          RegisterFile.applyAll_append, PlacedCall.request, Call.request, isRead]
        rfl
      obtain ⟨_, later, -, hlater, -⟩ := Agenda.exists_refused_of_begin
        (s.near.control.done ++ [p.call])
        (s.near.control.answers ++ [.ok (some (valueOfBytes bytes).toUInt64)]) pending
      refine ⟨later, ?_⟩
      change (s.near.control.proceed bytes).answers = _
      rw [Agenda.proceed_of_awaiting hstage]
      refine hlater.trans ?_
      rw [hvalue, valueOfBytes_encodeValue, Width.truncate_toUInt64_truncate,
        RegisterFile.toUInt64_truncate_read, hregisters, List.append_assoc]
      rfl

theorem near_can_step (h : s.Sound m cs) (hturn : s.near.control.turn ≠ .rest)
    (hsome : (∃ n, s.near.control.turn = .receive n) → s.responses ≠ []) : ∃ s', s.Step s' := by
  obtain ⟨_, _, _, hadvances⟩ := h.near_proper.advances hturn s.requests hsome
  exact ⟨_, .near hadvances⟩

theorem far_can_step (h : s.Sound m cs)
    (hsome : (∃ n, s.far.control.turn = .receive n) → s.requests ≠ []) : ∃ s', s.Step s' := by
  obtain ⟨_, _, _, hadvances⟩ := h.far_proper.advances h.live s.responses hsome
  exact ⟨_, .far hadvances⟩

/-- A conversation in which neither party can make a call is over. -/
theorem finished_of_stuck (h : s.Sound m cs) (hstuck : ∀ s', ¬s.Step s') :
    s.near.control.stage = .finished ∧ s.far.control.served = Call.requests cs ∧
      s.requests = [] ∧ s.responses = [] := by
  have hnone (hstep : ∃ s', s.Step s') : False := hstep.elim hstuck
  -- the session waits for bytes, and there are none
  have hrequests : s.requests = [] := by
    by_cases hnil : s.requests = []
    · exact hnil
    · exact (hnone (h.far_can_step fun _ => hnil)).elim
  obtain ⟨n, hfar⟩ : ∃ n, s.far.control.turn = .receive n := by
    by_cases hwaits : ∃ n, s.far.control.turn = .receive n
    · exact hwaits
    · exact (hnone (h.far_can_step fun hturn => absurd hturn hwaits)).elim
  have howed := h.responses_of_owed
  obtain ⟨hstage, hrest⟩ | ⟨p, pending, _, hsend⟩ | ⟨p, isRead, pending, hstage, hreceive⟩ :=
    s.near.control.turn_cases
  · have hunsent : s.near.transfer.unsent = [] := by rw [h.near_proper.transfer_of_rest hrest]; rfl
    obtain ⟨hserved, -, -⟩ := h.caught_up hfar hrequests hunsent
    rw [if_pos hserved, Agenda.owed, Agenda.request?, hstage] at howed
    refine ⟨hstage, ?_, hrequests, ?_⟩
    · rw [hserved, Agenda.started, Agenda.request?, hstage, h.keeps.done_of_finished hstage]
      exact List.append_nil _
    · exact (List.append_eq_nil_iff.mp (List.append_eq_nil_iff.mp howed).2).1
  · refine (hnone (h.near_can_step ?_ ?_)).elim
    · intro hrest
      cases hsend.symm.trans hrest
    · intro hwaits
      obtain ⟨n', hreceive⟩ := hwaits
      cases hsend.symm.trans hreceive
  · have hresponses : s.responses = [] := by
      by_cases hnil : s.responses = []
      · exact hnil
      · refine (hnone (h.near_can_step ?_ fun _ => hnil)).elim
        intro hrest
        cases hreceive.symm.trans hrest
    -- the session has carried the read out, so the whole response is there already
    obtain ⟨hunsent, hmissing⟩ := h.near_proper.of_receive hreceive
    obtain ⟨hserved, -, hfarUnsent⟩ := h.caught_up hfar hrequests hunsent
    have hlen := congrArg List.length howed
    rw [if_pos hserved, hresponses, hfarUnsent, List.append_nil, List.append_nil,
      Agenda.owed_of_awaiting hstage, length_encodeValue] at hlen
    exact absurd hlen (Nat.ne_of_lt hmissing)

end Sound

/-- A bridge and a session that take turns in any order. The session has carried out a prefix of the
started accesses, and the frames of the others are on their way to it, byte for byte. The way back
carries nothing but the response to the access that the bridge is at, all of it once the session has
carried the access out. Answers and registers are those of direct accesses. When a read completes,
nothing is under way, and the value is what the registers hold. A conversation that cannot go on is
over. -/
theorem Reachable.coherent (h : Reachable m cs s) :
    let bridge := s.near.control
    let session := s.far.control
    let direct := RegisterFile.ofMap m
    (session.served <+: bridge.started ∧
        session.served.flatMap Request.encode ++ s.begun ++ s.requests ++ s.near.transfer.unsent =
          bridge.started.flatMap Request.encode) ∧
      s.near.transfer.got ++ s.responses ++ s.far.transfer.unsent =
        (if session.served = bridge.started then bridge.owed m else []) ∧
      (session.registers = direct.applyAll session.served ∧
        bridge.answers = direct.answers bridge.done ∧ bridge.done ++ bridge.left = cs) ∧
      (∀ s' p isRead pending, s.Step s' → bridge.stage = .awaiting p isRead pending →
        s'.near.control ≠ bridge →
          s'.requests = [] ∧ s'.responses = [] ∧ s'.begun = [] ∧ s'.far.transfer.unsent = [] ∧
            s'.far.control.served = bridge.started ∧
            ∃ later, s'.near.control.answers =
              bridge.answers ++
                .ok (some (s'.far.control.registers.read p.placement.offset p.placement.width)) ::
                  later) ∧
      ((∀ s', ¬s.Step s') →
        bridge.stage = .finished ∧ session.served = Call.requests cs ∧
          s.requests = [] ∧ s.responses = []) := by
  intro bridge session direct
  have hsound := h.sound
  obtain ⟨rest, hstarted, -⟩ := hsound.served_prefix
  refine ⟨⟨⟨rest, hstarted.symm⟩, ?_⟩, ?_, ⟨hsound.books.registers_eq, hsound.keeps.answers_eq,
    hsound.keeps.calls_eq⟩, ?_, hsound.finished_of_stuck⟩
  · rw [← hsound.frames_eq]
    simp only [List.append_assoc]
    rfl
  · rw [List.append_assoc]
    exact hsound.responses_of_owed
  · intro s' p isRead pending hstep hstage hchange
    exact hsound.completed hstep hstage hchange

/-- A read whose response is back before the bridge has flushed the request. -/
theorem coherent_early_response :
    let p : PlacedCall := ⟨.read 4 1, ⟨4, .byte⟩, rfl⟩
    let waiting : Conversation :=
      { near := .enter ⟨[], [], .awaiting p rfl []⟩
        far := ⟨(Session.ofMap .standard).apply (.read 4 .byte), .sending ⟨1, []⟩⟩
        responses := [1] }
    Reachable .standard [.read 4 1] waiting ∧
      waiting.responses = waiting.near.control.owed .standard ∧
      ∃ s', waiting.Step s' ∧ s'.responses = [] ∧ s'.near.control.answers = [.ok (some 1)] := by
  intro p waiting
  let frame : List UInt8 := [0x52, 4, 0, 0, 0, 1]
  let session : Session := .ofMap .standard
  let asking : Agenda := ⟨[], [], .requesting p []⟩
  let asked : Suspended Agenda := ⟨asking, .sending ⟨6, []⟩⟩
  have hwritten : Reachable .standard [.read 4 1] ⟨asked, .enter session, frame, []⟩ :=
    .step .start (@Step.near _ _ _ _ 6 6
      (@Suspended.Advances.wrote _ _ _ _ asking (.ofBytes frame) 6 _ _ (by decide) rfl (by decide)))
  have hkind : Reachable .standard [.read 4 1]
      ⟨asked, .enter { session with phase := .header .read }, frame.drop 1, []⟩ :=
    .step hwritten (@Step.far _ _ _ _ 6 6
      (@Suspended.Advances.completed _ _ _ _ session (.ofLength 1) [0x52] _ _ rfl (by decide) rfl))
  have hresponding : Suspended.enter (session.apply (.read 4 .byte)) =
      ⟨session.apply (.read 4 .byte), .sending (.ofBytes [1])⟩ := by
    have hvalue : session.registers.response (.read 4 .byte) = [1] := by decide
    rw [← hvalue]
    rfl
  have happlied : Reachable .standard [.read 4 1]
      ⟨asked, .enter (session.apply (.read 4 .byte)), [], []⟩ :=
    .step hkind (@Step.far _ _ _ _ 6 6
      (@Suspended.Advances.completed _ _ _ _ { session with phase := .header .read } (.ofLength 5)
        [4, 0, 0, 0, 1] _ _ rfl (by decide) rfl))
  have hanswered : Reachable .standard [.read 4 1]
      ⟨asked, ⟨session.apply (.read 4 .byte), .sending ⟨1, []⟩⟩, [], [1]⟩ := by
    rw [hresponding] at happlied
    exact .step happlied (@Step.far _ _ _ _ 1 1
      (@Suspended.Advances.wrote _ _ _ _ (session.apply (.read 4 .byte)) (.ofBytes [1]) 1 _ _
        (by decide) rfl (by decide)))
  have hwaiting : Reachable .standard [.read 4 1] waiting :=
    .step hanswered (@Step.near _ _ _ _ 1 1
      (@Suspended.Advances.flushed _ _ _ _ asking ⟨6, []⟩ _ _ rfl rfl))
  obtain ⟨-, howed, -, hcompleted, -⟩ := Reachable.coherent hwaiting
  have hstep : waiting.Step
      ⟨.enter ⟨[.read 4 1], [.ok (some 1)], .finished⟩, waiting.far, [], []⟩ :=
    @Step.near _ _ _ _ 1 1
      (@Suspended.Advances.completed _ _ _ _ waiting.near.control (.ofLength 1) [1] _ _ rfl
        (by decide) rfl)
  obtain ⟨-, hqueue, -, -, -, -⟩ := hcompleted _ p rfl [] hstep rfl (fun h => by cases h)
  exact ⟨hwaiting, howed, _, hstep, hqueue, rfl⟩

end Conversation

end RemoteRegisters
