import RemoteRegisters.Proofs.Asynchrony.Conversation

/-!
# A conversation from the side of one party

A party to a conversation sees nothing of the other one but the bytes that it
reads, and of the queues nothing but what its own calls do. A script can lay down
the same calls. So each party of a conversation is where it would have come to on
a script alone, which delivers what the party has read, takes what it has written,
and may do anything afterwards (`Reachable.replays`).

On a script the parties are the bridge and the session that make all their calls
at one go. What is left of each in a conversation is therefore what is left of
`Bridge.performAll` and of `Session.run` (`Reachable.replayed`).

## Main definitions

- `Suspended.ComesFrom` — a program has come to a point between two calls on a script
-/

namespace RemoteRegisters

/-! ### One call in front of a script -/

namespace Script

theorem exists_read {bytes : List UInt8} {n : Nat} (hlen : bytes.length ≤ n) (later : Script) :
    ∃ now : Script, now.sent = later.sent ∧ now.undelivered = bytes ++ later.undelivered ∧
      now.read n = (.ok bytes, later) :=
  ⟨{ later with reads := .data bytes :: later.reads }, rfl, rfl, if_pos hlen⟩

theorem exists_write {bytes sent : List UInt8} {n : Nat} (hn : n ≤ bytes.length) {later : Script}
    (hsent : later.sent = sent ++ bytes.take n) :
    ∃ now : Script, now.sent = sent ∧ now.undelivered = later.undelivered ∧
      now.write bytes = (.ok n, later) := by
  refine ⟨{ later with writes := .accept n :: later.writes, sent := sent }, rfl, rfl, ?_⟩
  simp only [write, Nat.min_eq_left hn, ← hsent]

theorem exists_flush (later : Script) :
    ∃ now : Script, now.sent = later.sent ∧ now.undelivered = later.undelivered ∧
      now.flush = (.ok (), later) :=
  ⟨{ later with flushes := .succeed :: later.flushes }, rfl, rfl, rfl⟩

end Script

/-! ### The calls of one party on a script -/

namespace Suspended

variable {κ : Type} [Dialogue κ] {p p' : Suspended κ}
  {inbound inbound' outbound outbound' : List UInt8} {limit limit' : Nat}

/-- A program that starts in the state `c` comes to this point on a script that delivers the bytes
`taken` on the way and takes the bytes `sent`, whatever the script does later. -/
def ComesFrom (p : Suspended κ) (c : κ) (taken sent : List UInt8) : Prop :=
  ∀ later : Script, later.sent = sent →
    ∃ first : Script, first.sent = [] ∧ first.undelivered = taken ++ later.undelivered ∧
      AdvancesAll (.enter c) first p later

theorem comesFrom_enter (c : κ) : (enter c).ComesFrom c [] [] :=
  fun later hsent => ⟨later, hsent, rfl, .none _ later⟩

/-- A script can be preceded by a call that does what a call between two queues did. -/
theorem Advances.on_script
    (h : p.Advances (QueueEnd.mk inbound outbound limit) p'
      (QueueEnd.mk inbound' outbound' limit')) :
    ∃ taken written, inbound = taken ++ inbound' ∧ outbound' = outbound ++ written ∧
      ∀ (later : Script) (sent : List UInt8), later.sent = sent ++ written →
        ∃ now : Script, now.sent = sent ∧ now.undelivered = taken ++ later.undelivered ∧
          p.Advances now p' later := by
  cases h with
  | @wrote c o n _ _ hrest hwrite hn =>
    cases hwrite
    refine ⟨[], _, rfl, rfl, fun later sent hsent => ?_⟩
    obtain ⟨now, hnow, hdata, hcall⟩ := Script.exists_write (Nat.min_le_right _ _) hsent
    exact ⟨now, hnow, hdata, .wrote hrest hcall hn⟩
  | flushed hdone hflush =>
    cases hflush
    refine ⟨[], [], rfl, (List.append_nil _).symm, fun later sent hsent => ?_⟩
    obtain ⟨now, hnow, hdata, hcall⟩ := Script.exists_flush later
    exact ⟨now, by rw [hnow, hsent, List.append_nil], hdata, .flushed hdone hcall⟩
  | got hread hbytes hlen =>
    cases hread
    refine ⟨_, [], (List.take_append_drop _ _).symm, (List.append_nil _).symm,
      fun later sent hsent => ?_⟩
    obtain ⟨now, hnow, hdata, hcall⟩ := Script.exists_read (Nat.le_of_lt hlen) later
    exact ⟨now, by rw [hnow, hsent, List.append_nil], hdata, .got hcall hbytes hlen⟩
  | completed hread hbytes hlen =>
    cases hread
    refine ⟨_, [], (List.take_append_drop _ _).symm, (List.append_nil _).symm,
      fun later sent hsent => ?_⟩
    obtain ⟨now, hnow, hdata, hcall⟩ := Script.exists_read (Nat.le_of_eq hlen) later
    exact ⟨now, by rw [hnow, hsent, List.append_nil], hdata, .completed hcall hbytes hlen⟩

theorem ComesFrom.advance {c : κ} {taken sent : List UInt8} (h : p.ComesFrom c taken sent)
    (hadvances : p.Advances (QueueEnd.mk inbound outbound limit) p'
      (QueueEnd.mk inbound' outbound' limit')) :
    ∃ more written, inbound = more ++ inbound' ∧ outbound' = outbound ++ written ∧
      p'.ComesFrom c (taken ++ more) (sent ++ written) := by
  obtain ⟨more, written, hinbound, houtbound, hscript⟩ := hadvances.on_script
  refine ⟨more, written, hinbound, houtbound, fun later hsent => ?_⟩
  obtain ⟨now, hnow, hmore, hcall⟩ := hscript later sent hsent
  obtain ⟨first, hnone, htaken, hcalls⟩ := h now hnow
  exact ⟨first, hnone, by rw [htaken, hmore, List.append_assoc], hcalls.snoc hcall⟩

end Suspended

/-- A bridge that has finished answers nothing more. -/
theorem Agenda.resume_of_finished {σ : Type} [ByteStream σ] {p : Suspended Agenda}
    (hproper : p.Proper) (hstage : p.control.stage = .finished) (stream : σ) :
    p.resume course failed stream = p.control.answers := by
  have hturn : Dialogue.turn p.control = .rest := by simp only [Dialogue.turn, turn, hstage]
  simp only [Suspended.resume, hproper.transfer_of_rest hturn, course, hstage, List.append_nil]

namespace Conversation

variable {m : RegisterMap} {cs : List Call} {s : Conversation}

/-- Both parties come to where they are on scripts. What the one has sent is what the other has read,
and what is on its way. -/
theorem Reachable.replays (h : Reachable m cs s) :
    ∃ toFar toNear, s.near.ComesFrom (.ofCalls cs) toNear (toFar ++ s.requests) ∧
      s.far.ComesFrom (.ofMap m) toFar (toNear ++ s.responses) := by
  induction h with
  | start => exact ⟨[], [], Suspended.comesFrom_enter _, Suspended.comesFrom_enter _⟩
  | step _ hstep ih =>
    obtain ⟨toFar, toNear, hnear, hfar⟩ := ih
    cases hstep with
    | near hadvances =>
      -- what the bridge has read is no longer on its way, and what it has written is
      obtain ⟨more, written, hinbound, rfl, hnear'⟩ := hnear.advance hadvances
      refine ⟨toFar, toNear ++ more, ?_, ?_⟩
      · rwa [← List.append_assoc]
      · rwa [List.append_assoc, ← hinbound]
    | far hadvances =>
      obtain ⟨more, written, hinbound, rfl, hfar'⟩ := hfar.advance hadvances
      refine ⟨toFar ++ more, toNear, ?_, ?_⟩
      · rwa [List.append_assoc, ← hinbound]
      · rwa [← List.append_assoc]

/-- What the parties of a conversation come to, when each goes on alone from where any order of turns
has led them. The bridge comes to the answers that `Bridge.performAll` gives on a script which delivers
first what the bridge has read, and takes what it has written. The session comes to what `Session.run`
comes to on such a script. Once the bridge has finished, its answers on the script are those of direct
accesses to the registers. -/
theorem Reachable.replayed (h : Reachable m cs s) :
    ∃ toFar toNear : List UInt8,
      (∀ later : Script, later.sent = toFar ++ s.requests →
        ∃ first : Script, first.sent = [] ∧ first.undelivered = toNear ++ later.undelivered ∧
          Agenda.answersOn first cs = s.near.resume Agenda.course Agenda.failed later ∧
          (s.near.control.stage = .finished →
            Agenda.answersOn first cs = (RegisterFile.ofMap m).answers cs)) ∧
      ∀ later : Script, later.sent = toNear ++ s.responses →
        ∃ first : Script, first.sent = [] ∧ first.undelivered = toFar ++ later.undelivered ∧
          (Session.ofMap m).run first = s.far.resume Session.run Session.failed later := by
  have hsound := h.sound
  obtain ⟨toFar, toNear, hnear, hfar⟩ := h.replays
  refine ⟨toFar, toNear, fun later hsent => ?_, fun later hsent => ?_⟩
  · obtain ⟨first, hnone, htaken, hcalls⟩ := hnear later hsent
    have hresume := Agenda.answersOn_of_advances hcalls
    refine ⟨first, hnone, htaken, hresume, fun hstage => ?_⟩
    rw [hresume, Agenda.resume_of_finished hsound.near_proper hstage, hsound.keeps.answers_eq,
      hsound.keeps.done_of_finished hstage]
  · obtain ⟨first, hnone, htaken, hcalls⟩ := hfar later hsent
    exact ⟨first, hnone, htaken, Session.run_of_advances hcalls⟩

end Conversation

end RemoteRegisters
