import RemoteRegisters.Proofs.Session.Faults
import RemoteRegisters.Proofs.Session.Steps

/-!
# What a session logs

Two layers write to the log of a session: the session itself, a record of each
access and one of its end, and the register file, a record of each access that
finds no register. What comes of both is told from the map and the requests alone
(`RegisterMap.trace`), since no write makes a register or takes one away.

`Session.Logged` says that the log is the trace of the requests that were served,
and behind it the end if the session is over. Each step keeps this, so that a run
logs the trace of its frames and one event more, however it ends.

## Main definitions

- `RegisterMap.records`, `RegisterMap.trace` — what is logged of one request and of several
- `Event.answer` — the bytes that answer an access, told from its record
- `Session.Logged` — the log of a session says what the session has done
-/

namespace RemoteRegisters

/-! ### Records -/

namespace Event

/-- The record of an access that a session has carried out. -/
def isAccess : Event → Bool
  | sessionRead .. => true
  | sessionWrite .. => true
  | _ => false

/-- The bytes that answer an access: the value of a read, as its record has it. -/
def answer : Event → List UInt8
  | sessionRead _ w value => encodeValue value w
  | _ => []

/-- Only the orderly end of a session is no fault. -/
theorem level_sessionEnded (frames : Nat) (reason : EndReason) :
    (sessionEnded frames reason).level = if reason = .peerClosed then .info else .error := by
  cases reason <;> simp [level, EndReason.isClean]

end Event

namespace RegisterFile

@[simp]
theorem isSome_register?_apply (f : RegisterFile) (r : Request) (addr : UInt32) :
    ((f.apply r).register? addr).isSome = (f.register? addr).isSome := by
  cases r with
  | read addr' w => rfl
  | write addr' w value =>
    rw [apply, register?_write]
    split
    · exact Option.isSome_map
    · rfl

/-- There are registers where the map has them, whatever was written. -/
theorem isSome_register?_applyAll (m : RegisterMap) (rs : List Request) (addr : UInt32) :
    (((ofMap m).applyAll rs).register? addr).isSome = (m.lookup? addr).isSome := by
  have hkeep (f : RegisterFile) :
      ((f.applyAll rs).register? addr).isSome = (f.register? addr).isSome := by
    induction rs generalizing f with
    | nil => rfl
    | cons r rs ih => exact (ih (f.apply r)).trans (f.isSome_register?_apply r addr)
  rw [hkeep, register?_ofMap, Option.isSome_map]

end RegisterFile

namespace RegisterMap

/-- A record that is made only if the map has no register at the offset. -/
def unlessMapped (m : RegisterMap) (addr : UInt32) (e : Event) : List Event :=
  if (m.lookup? addr).isSome then [] else [e]

/-- What is logged of a request: the access, and that it finds no register if the map has none. The
value of a read has been asked for before the access is recorded, that of a write is stored after
it. -/
def records (m : RegisterMap) (f : RegisterFile) : Request → List Event
  | .read addr w =>
      m.unlessMapped addr (.undefinedRead addr)
        ++ [.sessionRead addr w (w.truncate (f.read addr w))]
  | .write addr w value =>
      .sessionWrite addr w value :: m.unlessMapped addr (.undefinedWrite addr value.toUInt64)

/-- What is logged of requests that are carried out one after the other. -/
def trace (m : RegisterMap) (f : RegisterFile) : List Request → List Event
  | [] => []
  | r :: rs => m.records f r ++ m.trace (f.apply r) rs

variable {m : RegisterMap} {f : RegisterFile}

theorem trace_append (rs qs : List Request) :
    m.trace f (rs ++ qs) = m.trace f rs ++ m.trace (f.applyAll rs) qs := by
  induction rs generalizing f with
  | nil => rfl
  | cons r rs ih =>
    rw [List.cons_append, trace, trace, ih, List.append_assoc]
    rfl

theorem eq_of_mem_unlessMapped {addr : UInt32} {e e' : Event} (h : e' ∈ m.unlessMapped addr e) :
    e' = e := by
  unfold unlessMapped at h
  split at h
  · cases h
  · exact List.mem_singleton.mp h

theorem level_of_mem_records {r : Request} {e : Event} (h : e ∈ m.records f r) :
    e.level = .debug := by
  cases r with
  | read addr w =>
    obtain hundefined | haccess := List.mem_append.mp h
    · rw [eq_of_mem_unlessMapped hundefined]
      rfl
    · rw [List.mem_singleton.mp haccess]
      rfl
  | write addr w value =>
    obtain haccess | hundefined := List.mem_cons.mp h
    · rw [haccess]
      rfl
    · rw [eq_of_mem_unlessMapped hundefined]
      rfl

theorem length_filter_isAccess_records (r : Request) :
    ((m.records f r).filter Event.isAccess).length = 1 := by
  cases r with
  | read addr w =>
    simp only [records, unlessMapped]
    split <;> rfl
  | write addr w value =>
    simp only [records, unlessMapped]
    split <;> rfl

theorem flatMap_answer_records (r : Request) :
    (m.records f r).flatMap Event.answer = f.response r := by
  cases r with
  | read addr w =>
    simp only [records, unlessMapped]
    split <;> simp [Event.answer, RegisterFile.response]
  | write addr w value =>
    simp only [records, unlessMapped]
    split <;> rfl

theorem level_of_mem_trace {rs : List Request} {e : Event} (h : e ∈ m.trace f rs) :
    e.level = .debug := by
  induction rs generalizing f with
  | nil => cases h
  | cons r rs ih =>
    obtain hfirst | hlater := List.mem_append.mp h
    · exact level_of_mem_records hfirst
    · exact ih hlater

/-- There is one record of an access for each request. -/
theorem length_filter_isAccess_trace (rs : List Request) :
    ((m.trace f rs).filter Event.isAccess).length = rs.length := by
  induction rs generalizing f with
  | nil => rfl
  | cons r rs ih =>
    rw [trace, List.filter_append, List.length_append, length_filter_isAccess_records, ih,
      List.length_cons, Nat.add_comm]

/-- Where the map has no register, a read is reported before it is recorded and a write after it. -/
example :
    RegisterMap.standard.trace (.ofMap .standard) [.read 0x40 .byte, .write 0x40 .byte 7] =
      [.undefinedRead 0x40, .sessionRead 0x40 .byte 0, .sessionWrite 0x40 .byte 7,
        .undefinedWrite 0x40 7] := by
  decide

/-- The records of the reads have the values that the responses carry. -/
theorem flatMap_answer_trace (rs : List Request) :
    (m.trace f rs).flatMap Event.answer = f.responses rs := by
  induction rs generalizing f with
  | nil => rfl
  | cons r rs ih => rw [trace, List.flatMap_append, flatMap_answer_records, ih]; rfl

end RegisterMap

namespace Session

/-! ### The log of a session -/

variable {m : RegisterMap} {s s' : Session}

theorem log_apply (s : Session) (q : Request)
    (hmapped : ∀ addr, (s.registers.register? addr).isSome = (m.lookup? addr).isSome) :
    (s.apply q).log = s.log ++ m.records s.registers q := by
  cases q with
  | read addr w =>
    simp only [apply, RegisterFile.readEvents, RegisterMap.records, RegisterMap.unlessMapped,
      hmapped, List.append_assoc]
  | write addr w value =>
    simp only [apply, RegisterFile.writeEvents, RegisterMap.records, RegisterMap.unlessMapped,
      hmapped, List.append_assoc, List.singleton_append]

/-- The log is the trace of the requests that were served, and the end if the session is over. -/
structure Logged (m : RegisterMap) (s : Session) : Prop extends s.Books m where
  log_eq : s.log = m.trace (.ofMap m) s.served ++ s.endReason?.toList.map (.sessionEnded s.frames)

theorem logged_ofMap (m : RegisterMap) : (ofMap m).Logged m :=
  ⟨books_ofMap m, rfl⟩

/-- A session that is not over has logged the trace of its requests and nothing else. -/
theorem Logged.log_of_live (h : s.Logged m) (hlive : ¬s.isOver = true) :
    s.log = m.trace (.ofMap m) s.served := by
  have hnone : s.endReason? = none := by
    cases hphase : s.phase with
    | ended reason => exact absurd (isOver_iff.mpr ⟨reason, hphase⟩) hlive
    | _ => simp only [endReason?, hphase]
  rw [h.log_eq, hnone]
  exact List.append_nil _

theorem Logged.moved (h : s.Logged m) (hlive : ¬s.isOver = true) (hmoved : s.Moved s') :
    s'.Logged m := by
  have hlog := h.log_of_live hlive
  cases hmoved with
  | @applied q hfit =>
    refine ⟨h.toBooks.apply hfit, ?_⟩
    have hmapped (addr : UInt32) :
        (s.registers.register? addr).isSome = (m.lookup? addr).isSome := by
      rw [h.registers_eq, RegisterFile.isSome_register?_applyAll]
    have hlive' : (s.apply q).endReason? = none := by cases q <;> rfl
    rw [log_apply s q hmapped, hlog, hlive', served_apply, RegisterMap.trace_append, h.registers_eq]
    simp [RegisterMap.trace]
  | @continued p hp =>
    refine ⟨h.toBooks.of_same rfl rfl rfl rfl, ?_⟩
    have hlive' : ({ s with phase := p } : Session).endReason? = none := by
      cases p with
      | ended reason => exact absurd rfl hp
      | _ => rfl
    rw [hlive']
    exact hlog.trans (List.append_nil _).symm
  | finished reason =>
    refine ⟨h.toBooks.of_same rfl rfl rfl rfl, ?_⟩
    exact congrArg (· ++ [.sessionEnded s.frames reason]) hlog

theorem Logged.run (h : s.Logged m) (stream : Script) : (s.run stream).1.Logged m := by
  fun_induction s.run stream with
  | case1 s stream hover => exact h
  | case2 s stream hlive ih => exact ih (h.moved hlive (moved_step hlive stream))

/-! ### The log of a run -/

/-- What a session has of an unfinished frame when it ends is no frame. -/
theorem Closing.decode_rest {f : RegisterFile} {served : List Request} {rest sent : List UInt8}
    {reason : EndReason} (h : Closing f served rest sent reason) :
    ∃ e, Request.decode rest = .error e := by
  cases h with
  | answering _ hrest _ _ => exact ⟨_, hrest ▸ Request.decode_nil⟩
  | waiting hleaves _ =>
    cases hleaves with
    | peerClosed hrest => exact ⟨_, hrest ▸ Request.decode_nil⟩
    | truncated _ _ hd => exact ⟨_, hd⟩
    | failed _ _ hd => exact ⟨_, hd⟩
    | malformed hbad =>
      cases hbad with
      | @unknownKind b _ hrest =>
        subst hrest
        have hshort : [b].length < headerLength := Nat.succ_lt_succ (Nat.succ_pos 4)
        exact ⟨_, Request.decode_of_header_error (Header.decode_of_short hshort)⟩
      | invalidWidth _ _ hd => exact ⟨_, Request.decode_of_header_error hd⟩

/-- A session has sent the responses to its requests, and all of them unless a transfer has failed. -/
theorem Closing.sent_prefix {f : RegisterFile} {served : List Request} {rest sent : List UInt8}
    {reason : EndReason} (h : Closing f served rest sent reason) :
    sent <+: f.responses served ∧
      ((∀ e, reason ≠ .transport e) → sent = f.responses served) := by
  cases h with
  | waiting _ hsent => exact ⟨hsent ▸ List.prefix_refl _, fun _ => hsent⟩
  | answering hserved _ hpart hsent =>
    refine ⟨?_, fun hnot => absurd rfl (hnot _)⟩
    rw [hsent, hserved, RegisterFile.responses_append, RegisterFile.responses_singleton]
    exact (List.prefix_append_right_inj _).mpr hpart

/-- The log of a session is a faithful trace of what it has done, whatever its stream does. It has one
record of an access for each request that was served, in order, with the value that the registers gave
or were given, and one more for each access to an offset that the map does not have, all of them
for debugging. Behind these stands one record of the end, with the number of frames and the reason,
and nothing else. A frame that has not come in full, or is malformed, leaves no record. The responses
carry the values that the records of the reads have. -/
theorem log_faithful (m : RegisterMap) (start : Script) :
    let course := (ofMap m).run start
    let served := course.1.served
    let trace := m.trace (.ofMap m) served
    ∃ reason rest sent,
      course.1.endReason? = some reason ∧
      start.undelivered = served.flatMap Request.encode ++ rest ++ course.2.undelivered ∧
      (∀ q ∈ served, q.fit = q) ∧ (∃ e, Request.decode rest = .error e) ∧
      course.1.log = trace ++ [.sessionEnded course.1.frames reason] ∧
      (∀ e ∈ trace, e.level = .debug) ∧
      (trace.filter Event.isAccess).length = course.1.frames ∧
      (Event.sessionEnded course.1.frames reason).level =
        (if reason = .peerClosed then .info else .error) ∧
      course.2.sent = start.sent ++ sent ∧ sent <+: trace.flatMap Event.answer ∧
      ((∀ e, reason ≠ .transport e) → sent = trace.flatMap Event.answer) := by
  intro course served trace
  obtain ⟨hbooks, hstanding⟩ := Standing.run (books_ofMap m) (standing_start m start)
  have hlogged := (logged_ofMap m).run start
  obtain ⟨reason, rest, sent, hend, htaken, hsent, hclosing⟩ :=
    hstanding.closing (isOver_run (ofMap m) start)
  have hlog := hlogged.log_eq
  rw [hend] at hlog
  obtain ⟨hfront, hall⟩ := hclosing.sent_prefix
  rw [← RegisterMap.flatMap_answer_trace (m := m)] at hfront hall
  exact ⟨reason, rest, sent, hend, htaken, hbooks.fit_eq, hclosing.decode_rest, hlog,
    fun _ => RegisterMap.level_of_mem_trace,
    (RegisterMap.length_filter_isAccess_trace served).trans hbooks.frames_eq.symm,
    Event.level_sessionEnded _ _, hsent, hfront, hall⟩

end Session

end RemoteRegisters
