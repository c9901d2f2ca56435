import RemoteRegisters.Proofs.Asynchrony.Agenda
import RemoteRegisters.Proofs.Asynchrony.Queues
import RemoteRegisters.Proofs.Asynchrony.Session

/-!
# A bridge and a session that take turns in any order

A bridge and a session are joined by two queues of bytes. Either may make its next
call at any time, and a call may move any number of bytes. Writes are not
answered, so the bridge can run far ahead of the session; frames and responses
can be cut anywhere. The parties are those that run on a stream at one go
(`Agenda.conducts`, `Session.conducts`), looked at between two calls; what each
comes to in a conversation it comes to on a stream of its own as well
(`Reachable.replayed`).

`Sound` ties both queues, both unfinished transfers and both parties together, and
every step keeps it (`Sound.step`). From it follows what can be seen of the
conversation in each state that any order of steps leads to
(`Reachable.coherent`).

## Main definitions

- `Conversation`, `Conversation.Step` — the two parties with their queues, and one call
- `Conversation.Reachable` — the states that any order of calls leads to
- `Conversation.Sound` — the invariant
-/

namespace RemoteRegisters

/-- A bridge and a session with the bytes on their way from one to the other. -/
structure Conversation where
  near : Suspended Agenda
  far : Suspended Session
  /-- Bytes from the bridge that the session has not read yet. -/
  requests : List UInt8 := []
  /-- Bytes from the session that the bridge has not read yet. -/
  responses : List UInt8 := []

namespace Conversation

def start (m : RegisterMap) (cs : List Call) : Conversation where
  near := .enter (.ofCalls cs)
  far := .enter (.ofMap m)

/-- One of the parties makes a call on its queues, which moves as many bytes as it likes. -/
inductive Step (s : Conversation) : Conversation → Prop where
  | near {near' : Suspended Agenda} {requests' responses' : List UInt8} {limit limit' : Nat} :
      s.near.Advances (QueueEnd.mk s.responses s.requests limit) near'
          (QueueEnd.mk responses' requests' limit') →
        Step s ⟨near', s.far, requests', responses'⟩
  | far {far' : Suspended Session} {requests' responses' : List UInt8} {limit limit' : Nat} :
      s.far.Advances (QueueEnd.mk s.requests s.responses limit) far'
          (QueueEnd.mk requests' responses' limit') →
        Step s ⟨s.near, far', requests', responses'⟩

/-- The states that some order of calls leads to. -/
inductive Reachable (m : RegisterMap) (cs : List Call) : Conversation → Prop where
  | start : Reachable m cs (start m cs)
  | step {s s' : Conversation} : Reachable m cs s → s.Step s' → Reachable m cs s'

/-- The bytes that the session has of a frame that it has not carried out. -/
def begun (s : Conversation) : List UInt8 :=
  s.far.control.phase.begun ++ s.far.transfer.got

/-- The invariant of a conversation. Nothing is lost on the way to the session, and nothing on the way
back. -/
structure Sound (m : RegisterMap) (cs : List Call) (s : Conversation) : Prop where
  near_proper : s.near.Proper
  far_proper : s.far.Proper
  keeps : s.near.control.Keeps m cs
  books : s.far.control.Books m
  live : s.far.control.turn ≠ .rest
  frames_eq :
    s.far.control.served.flatMap Request.encode ++
        (s.begun ++ (s.requests ++ s.near.transfer.unsent)) =
      s.near.control.started.flatMap Request.encode
  responses_eq :
    (RegisterFile.ofMap m).responses s.far.control.served =
      (RegisterFile.ofMap m).responses (Call.requests s.near.control.done) ++
        (s.near.transfer.got ++ (s.responses ++ s.far.transfer.unsent))

variable {m : RegisterMap} {cs : List Call} {s s' : Conversation}

/-- The bridge starts its next access when the session has nothing left of the earlier ones but bytes
that are under way. -/
theorem sound_begin {far : Suspended Session} {requests responses : List UInt8} {done : List Call}
    {answers : List Answer} {pending : List Call} (hproper : far.Proper)
    (hbooks : far.control.Books m) (hlive : far.control.turn ≠ .rest)
    (hanswers : answers = (RegisterFile.ofMap m).answers done) (hcalls : done ++ pending = cs)
    (hframes : far.control.served.flatMap Request.encode ++
        (far.control.phase.begun ++ far.transfer.got ++ requests) =
      (Call.requests done).flatMap Request.encode)
    (hresponses : (RegisterFile.ofMap m).responses far.control.served =
      (RegisterFile.ofMap m).responses (Call.requests done) ++
        (responses ++ far.transfer.unsent)) :
    Sound m cs ⟨.enter (.begin done answers pending), far, requests, responses⟩ := by
  have hunsent := Agenda.unsent_begin done answers pending
  have hdone := Agenda.requests_begin done answers pending
  exact
    { near_proper := Suspended.proper_enter _
      far_proper := hproper
      keeps := hcalls ▸ Agenda.keeps_begin hanswers pending
      books := hbooks
      live := hlive
      frames_eq := by
        rw [hunsent, begun, ← List.append_assoc _ requests, ← List.append_assoc, hframes, ← hdone]
        exact List.flatMap_append.symm
      responses_eq := by
        rw [Suspended.got_enter, List.nil_append, hresponses, ← hdone]
        rfl }

theorem sound_start (m : RegisterMap) (cs : List Call) : (start m cs).Sound m cs :=
  sound_begin (Suspended.proper_enter _) (Session.books_ofMap m)
    (Session.turn_ne_rest_of_waiting rfl) rfl rfl rfl rfl

namespace Sound

/-- What the session has not carried out yet of the started requests is what stands in its unfinished
frame, in the queue, and with the bridge. -/
theorem served_prefix (h : s.Sound m cs) :
    ∃ rest, s.near.control.started = s.far.control.served ++ rest ∧
      s.begun ++ (s.requests ++ s.near.transfer.unsent) = rest.flatMap Request.encode :=
  Request.eq_append_of_frames h.books.fit_eq (fun _ => Agenda.fit_of_mem_started) h.frames_eq

/-- The bytes in the direction of the bridge are the response to the access it is at, as soon as the
session has carried that access out, and none before. -/
theorem responses_of_owed (h : s.Sound m cs) :
    s.near.transfer.got ++ (s.responses ++ s.far.transfer.unsent) =
      if s.far.control.served = s.near.control.started then s.near.control.owed m else [] := by
  have heq := h.responses_eq
  obtain ⟨rest, hstarted, -⟩ := h.served_prefix
  by_cases hall : s.far.control.served = s.near.control.started
  · rw [if_pos hall]
    rw [hall, Agenda.responses_started] at heq
    exact (List.append_cancel_left heq).symm
  · rw [if_neg hall]
    -- the session is behind, so it has answered no more than what the bridge is done with
    have hbehind : s.far.control.served <+: Call.requests s.near.control.done := by
      have hfront : s.far.control.served <+: s.near.control.started := ⟨rest, hstarted.symm⟩
      rw [Agenda.started] at hfront hall
      cases hrequest : s.near.control.request? with
      | none => simpa only [hrequest, Option.toList_none, List.append_nil] using hfront
      | some q =>
        rw [hrequest, Option.toList_some] at hfront hall
        exact (List.prefix_concat_iff.mp hfront).resolve_left hall
    obtain ⟨later, hlater⟩ := hbehind
    rw [← hlater, RegisterFile.responses_append, List.append_assoc] at heq
    have hnone := List.append_cancel_left ((List.append_nil _).trans heq)
    exact (List.append_eq_nil_iff.mp hnone.symm).2

/-! ### The calls of the bridge -/

/-- The access that the bridge is at is answered, and the next one is started. -/
theorem conclude (h : s.Sound m cs) {p : PlacedCall} {pending : List Call} {value : Option UInt32}
    {responses' : List UInt8} (hrequest : s.near.control.request? = some p.request)
    (hleft : s.near.control.left = p.call :: pending) (hunsent : s.near.transfer.unsent = [])
    (hvalue : .ok (value.map UInt32.toUInt64) =
      ((RegisterFile.ofMap m).applyAll (Call.requests s.near.control.done)).answer p.call)
    (hresponses : (RegisterFile.ofMap m).responses s.far.control.served =
      (RegisterFile.ofMap m).responses s.near.control.started ++
        (responses' ++ s.far.transfer.unsent)) :
    Sound m cs
      ⟨.enter (s.near.control.conclude p value pending), s.far, s.requests, responses'⟩ := by
  have hstarted : Call.requests (s.near.control.done ++ [p.call]) = s.near.control.started := by
    rw [Call.requests_append, Agenda.started, hrequest, Call.requests_cons,
      Call.request?_of_place p.placed]
    rfl
  apply sound_begin h.far_proper h.books h.live
  · rw [RegisterFile.answers_append, ← h.keeps.answers_eq, hvalue]
    rfl
  · rw [← h.keeps.calls_eq, hleft, List.append_assoc]
    rfl
  · have hframes := h.frames_eq
    rw [hunsent, List.append_nil] at hframes
    rw [hstarted]
    exact hframes
  · rw [hstarted]
    exact hresponses

theorem near_sent (h : s.Sound m cs) {bytes : List UInt8}
    (hturn : s.near.control.turn = .send bytes) (hgot : s.near.transfer.got = [])
    (hunsent : s.near.transfer.unsent = []) :
    Sound m cs ⟨.enter (s.near.control.proceed []), s.far, s.requests, s.responses⟩ := by
  obtain ⟨p, pending, hstage⟩ := Agenda.exists_requesting_of_turn hturn
  have hrequest : s.near.control.request? = some p.request := by
    simp only [Agenda.request?, hstage]
  have hleft : s.near.control.left = p.call :: pending := by simp only [Agenda.left, hstage]
  have hresponses := h.responses_eq
  rw [hgot, List.nil_append] at hresponses
  cases hop : p.call.operation with
  | read =>
    -- the bridge is still at the same access
    rw [Agenda.proceed_of_read hstage hop]
    have hsame : Agenda.request? { s.near.control with stage := .awaiting p hop pending } =
        s.near.control.request? := hrequest.symm
    exact
      { near_proper := Suspended.proper_enter _
        far_proper := h.far_proper
        keeps := ⟨h.keeps.answers_eq, by rw [← h.keeps.calls_eq, hleft]; rfl⟩
        books := h.books
        live := h.live
        frames_eq := by
          have hframes := h.frames_eq
          rw [hunsent, Agenda.started, ← hsame] at hframes
          exact hframes
        responses_eq := hresponses }
  | write value =>
    rw [Agenda.proceed_of_write hstage hop]
    refine h.conclude hrequest hleft hunsent ?_ ?_
    · rw [RegisterFile.answer_of_place _ p.placed, RegisterFile.found, hop]
    · have howed : s.near.control.owed m = [] := by
        rw [Agenda.owed_of_request hrequest, PlacedCall.request, Call.request, hop]
        rfl
      rw [Agenda.responses_started, howed, List.append_nil]
      exact hresponses

/-- A whole response is there only when the session has carried the read out and sent all of it. -/
theorem whole_response (h : s.Sound m cs) {p : PlacedCall} {isRead : p.call.operation = .read}
    {pending : List Call} (hstage : s.near.control.stage = .awaiting p isRead pending)
    {bytes responses' : List UInt8} (hlen : bytes.length = p.placement.width.bytes)
    (hbytes : s.near.transfer.got ++ s.responses = bytes ++ responses') :
    s.far.control.served = s.near.control.started ∧ responses' = [] ∧
      s.far.transfer.unsent = [] ∧
      bytes = encodeValue (p.placement.width.truncate
        (((RegisterFile.ofMap m).applyAll (Call.requests s.near.control.done)).read
          p.placement.offset p.placement.width)) p.placement.width := by
  have howed := h.responses_of_owed
  rw [← List.append_assoc, hbytes, List.append_assoc] at howed
  have hsome : bytes ≠ [] := by
    intro hnil
    have hpos := p.placement.width.bytes_pos
    rw [← hlen, hnil] at hpos
    exact Nat.lt_irrefl _ hpos
  split at howed
  · rename_i hall
    rw [Agenda.owed_of_awaiting hstage] at howed
    obtain ⟨hvalue, hrest⟩ := List.append_inj (howed.trans (List.append_nil _).symm)
      (hlen.trans (length_encodeValue _ _).symm)
    obtain ⟨hqueue, hunsent⟩ := List.append_eq_nil_iff.mp hrest
    exact ⟨hall, hqueue, hunsent, hvalue⟩
  · exact absurd (List.append_eq_nil_iff.mp howed).1 hsome

theorem near_received (h : s.Sound m cs) {bytes responses' : List UInt8}
    (hturn : s.near.control.turn = .receive bytes.length) (hunsent : s.near.transfer.unsent = [])
    (hbytes : s.near.transfer.got ++ s.responses = bytes ++ responses') :
    Sound m cs ⟨.enter (s.near.control.proceed bytes), s.far, s.requests, responses'⟩ := by
  obtain ⟨p, isRead, pending, hstage, hlen⟩ := Agenda.exists_awaiting_of_turn hturn
  obtain ⟨hserved, hqueue, hfar, hvalue⟩ := h.whole_response hstage hlen hbytes
  rw [Agenda.proceed_of_awaiting hstage]
  refine h.conclude (Agenda.request?_of_awaiting hstage) ?_ hunsent ?_ ?_
  · simp only [Agenda.left, hstage]
  · rw [RegisterFile.answer_of_place _ p.placed, RegisterFile.found, isRead, hvalue,
      valueOfBytes_encodeValue, Width.truncate_toUInt64_truncate]
  · rw [hserved, hqueue, hfar]
    exact (List.append_nil _).symm

/-! ### The calls of the session -/

/-- The session has completed a transfer and goes on in a new state. -/
theorem enter_far (h : s.Sound m cs) {far' : Session} {requests' : List UInt8}
    (hbooks : far'.Books m) (hlive : far'.turn ≠ .rest)
    (hframes : far'.served.flatMap Request.encode ++
        (far'.phase.begun ++ (requests' ++ s.near.transfer.unsent)) =
      s.near.control.started.flatMap Request.encode)
    (hresponses : (RegisterFile.ofMap m).responses far'.served =
      (RegisterFile.ofMap m).responses (Call.requests s.near.control.done) ++
        (s.near.transfer.got ++ (s.responses ++ (Suspended.enter far').transfer.unsent))) :
    Sound m cs ⟨s.near, .enter far', requests', s.responses⟩ where
  near_proper := h.near_proper
  far_proper := Suspended.proper_enter _
  keeps := h.keeps
  books := hbooks
  live := hlive
  frames_eq := by
    rw [begun, Suspended.got_enter, List.append_nil]
    exact hframes
  responses_eq := hresponses

theorem far_sent (h : s.Sound m cs) {bytes : List UInt8}
    (hturn : s.far.control.turn = .send bytes) (hgot : s.far.transfer.got = [])
    (hunsent : s.far.transfer.unsent = []) :
    Sound m cs ⟨s.near, .enter (s.far.control.proceed []), s.requests, s.responses⟩ := by
  have hphase := Session.phase_of_turn_send hturn
  have hproceed : s.far.control.proceed [] = s.far.control.responded := by
    simp only [Session.proceed, hphase]
  have hframes := h.frames_eq
  have hresponses := h.responses_eq
  rw [begun, hphase, hgot] at hframes
  rw [hunsent] at hresponses
  rw [hproceed]
  exact h.enter_far (h.books.of_same rfl rfl rfl rfl) (Session.turn_ne_rest_of_waiting rfl) hframes
    hresponses

/-- What the session reads next is never malformed: it is the head of the next frames. -/
theorem not_malformed (h : s.Sound m cs) {whole rest : List UInt8} {e : FrameError}
    (hwhole : s.begun ++ (s.requests ++ s.near.transfer.unsent) = whole ++ rest)
    (hsome : whole ≠ []) : ¬Request.Malformed whole e := by
  intro hbad
  obtain ⟨later, -, hlater⟩ := h.served_prefix
  rw [hwhole] at hlater
  cases later with
  | nil => exact hsome (List.append_eq_nil_iff.mp hlater).1
  | cons q later =>
    rw [List.flatMap_cons] at hlater
    have hlen : headerLength ≤ (whole ++ rest).length := by
      have hheader := q.headerLength_le_frameLength
      rw [hlater, List.length_append, Request.length_encode]
      omega
    have hread := hbad.decode_append hlen
    rw [hlater, Request.decode_encode_append] at hread
    cases hread

theorem far_received (h : s.Sound m cs) {bytes requests' : List UInt8}
    (hturn : s.far.control.turn = .receive bytes.length) (hunsent : s.far.transfer.unsent = [])
    (hbytes : s.far.transfer.got ++ s.requests = bytes ++ requests') :
    Sound m cs ⟨s.near, .enter (s.far.control.proceed bytes), requests', s.responses⟩ := by
  obtain ⟨hwait, hlen⟩ := Session.waiting_of_turn_receive hturn
  have hwhole : s.begun ++ (s.requests ++ s.near.transfer.unsent) =
      s.far.control.phase.begun ++ bytes ++ (requests' ++ s.near.transfer.unsent) := by
    rw [begun, List.append_assoc, ← List.append_assoc _ s.requests, hbytes]
    simp only [List.append_assoc]
  have hframes := h.frames_eq
  have hresponses := h.responses_eq
  rw [hwhole] at hframes
  rw [hunsent, List.append_nil] at hresponses
  have hreception := Session.reception_received hwait hlen
  rw [Session.proceed_of_waiting hwait]
  generalize s.far.control.received bytes = far' at hreception
  cases hreception with
  | @applied q hfit hframe =>
    refine h.enter_far (h.books.apply hfit) (s.far.control.turn_apply_ne_rest q) ?_ ?_
    · rw [Session.begun_apply, List.nil_append, Session.served_apply, List.flatMap_append,
        List.flatMap_singleton, hframe, List.append_assoc, hframes]
    · rw [Session.unsent_apply, Session.served_apply, RegisterFile.responses_append,
        RegisterFile.responses_singleton, hresponses, ← h.books.registers_eq]
      simp only [List.append_assoc]
  | @continued p hwait' hbegun =>
    refine h.enter_far (h.books.of_same rfl rfl rfl rfl) (Session.turn_ne_rest_of_waiting hwait') ?_ ?_
    · rw [← hframes, ← hbegun]
    · rw [Session.unsent_of_waiting hwait', List.append_nil]
      exact hresponses
  | malformed hbad =>
    have hsome : s.far.control.phase.begun ++ bytes ≠ [] := by
      intro hnil
      have hpos := Session.Phase.demand_pos hwait
      rw [← hlen, (List.append_eq_nil_iff.mp hnil).2] at hpos
      exact Nat.lt_irrefl _ hpos
    exact absurd hbad (h.not_malformed hwhole hsome)

/-! ### One call, and all calls -/

theorem near_step (h : s.Sound m cs) {near' : Suspended Agenda} {requests' responses' : List UInt8}
    (hproper : near'.Proper)
    (heffect : s.near.Effect s.responses s.requests near' responses' requests') :
    Sound m cs ⟨near', s.far, requests', responses'⟩ := by
  cases heffect with
  | underway hin hout =>
    have hframes := h.frames_eq
    have hresponses := h.responses_eq
    rw [← hout] at hframes
    rw [← List.append_assoc s.near.transfer.got, ← hin, List.append_assoc] at hresponses
    exact
      { near_proper := hproper
        far_proper := h.far_proper
        keeps := h.keeps
        books := h.books
        live := h.live
        frames_eq := hframes
        responses_eq := hresponses }
  | sent hturn hgot hunsent => exact h.near_sent hturn hgot hunsent
  | received hturn hunsent hbytes => exact h.near_received hturn hunsent hbytes

theorem far_step (h : s.Sound m cs) {far' : Suspended Session} {requests' responses' : List UInt8}
    (hproper : far'.Proper)
    (heffect : s.far.Effect s.requests s.responses far' requests' responses') :
    Sound m cs ⟨s.near, far', requests', responses'⟩ := by
  cases heffect with
  | @underway t _ _ hin hout =>
    have hframes := h.frames_eq
    have hresponses := h.responses_eq
    rw [begun, List.append_assoc, ← List.append_assoc s.far.transfer.got, ← hin,
      List.append_assoc, ← List.append_assoc s.far.control.phase.begun] at hframes
    rw [← hout] at hresponses
    exact
      { near_proper := h.near_proper
        far_proper := hproper
        keeps := h.keeps
        books := h.books
        live := h.live
        frames_eq := hframes
        responses_eq := hresponses }
  | sent hturn hgot hunsent => exact h.far_sent hturn hgot hunsent
  | received hturn hunsent hbytes => exact h.far_received hturn hunsent hbytes

/-- Whichever party makes a call, and whatever it moves, the invariant is kept. -/
theorem step (h : s.Sound m cs) (hstep : s.Step s') : s'.Sound m cs := by
  cases hstep with
  | near hadvances =>
    obtain ⟨hproper, heffect⟩ := hadvances.effect h.near_proper
    exact h.near_step hproper heffect
  | far hadvances =>
    obtain ⟨hproper, heffect⟩ := hadvances.effect h.far_proper
    exact h.far_step hproper heffect

end Sound

theorem Reachable.sound (h : Reachable m cs s) : s.Sound m cs := by
  induction h with
  | start => exact sound_start m cs
  | step _ hstep ih => exact ih.step hstep

end Conversation

end RemoteRegisters
