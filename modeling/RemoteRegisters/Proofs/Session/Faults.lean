import RemoteRegisters.Proofs.Register.Transmission
import RemoteRegisters.Proofs.Session.Phases
import RemoteRegisters.Proofs.Session.Transcript

/-!
# The accounts of a session on a faulty stream

Whatever the steps of a script do, a session carries out whole frames only, in
order, and accounts for every byte: what it has taken from the stream are the
frames that it carried out and what it had of the next one when it ended
(`Session.accounts`). The reason for which it ended says what that rest is.

Each transfer can fail, in each phase and after any number of bytes. `Standing`
says where a session can stand between two transfers, and one lemma for each kind
of transfer says where it stands after it.

## Main definitions

- `EndReason.Leaves` — what a session has of an unfinished frame when it ends for a reason
- `Session.Closing` — the rest and the bytes sent with which a session ends
- `Session.Standing` — where a session can stand between two transfers
-/

namespace RemoteRegisters

/-- When a session that waits for bytes ends for this reason, the bytes `rest` of an unfinished frame
have come. -/
inductive EndReason.Leaves (rest : List UInt8) : EndReason → Prop where
  | peerClosed : rest = [] → Leaves rest .peerClosed
  | truncated {expected : Nat} :
      1 ≤ rest.length → rest.length < expected →
        Request.decode rest = .error (.truncated expected rest.length) →
        Leaves rest (.truncated expected rest.length)
  | malformed {e : FrameError} : Request.Malformed rest e → Leaves rest (.protocol e)
  /-- A read of the stream has failed, and the frame was not whole. -/
  | failed {cause : IoError} {expected : Nat} :
      cause.kind ≠ .interrupted → rest.length < expected →
        Request.decode rest = .error (.truncated expected rest.length) →
        Leaves rest (.transport (.io cause))

namespace Session

/-- How a session ends on registers `f`: the requests that it served, what it has of a further frame,
and the bytes that it sent. Only when the answer to the last request fails is less sent than all
responses in full. -/
inductive Closing (f : RegisterFile) (served : List Request) (rest sent : List UInt8) :
    EndReason → Prop where
  | waiting {reason : EndReason} :
      reason.Leaves rest → sent = f.responses served → Closing f served rest sent reason
  | answering {done : List Request} {addr : UInt32} {w : Width} {part : List UInt8}
      {e : TransferError} :
      served = done ++ [.read addr w] → rest = [] →
        part <+: (f.applyAll done).response (.read addr w) → sent = f.responses done ++ part →
        Closing f served rest sent (.transport e)

/-- Where a session can stand on a stream that was in the state `start` when the session began. -/
inductive Standing (m : RegisterMap) (start : Script) (s : Session) (stream : Script) : Prop where
  | waiting :
      s.phase.distance = 1 →
        start.undelivered =
          s.served.flatMap Request.encode ++ s.phase.begun ++ stream.undelivered →
        stream.sent = start.sent ++ (RegisterFile.ofMap m).responses s.served →
        Standing m start s stream
  | answering {done : List Request} {addr : UInt32} {w : Width} :
      s.served = done ++ [.read addr w] →
        s.phase =
          .responding (((RegisterFile.ofMap m).applyAll done).response (.read addr w)) →
        start.undelivered = s.served.flatMap Request.encode ++ stream.undelivered →
        stream.sent = start.sent ++ (RegisterFile.ofMap m).responses done →
        Standing m start s stream
  | ended {reason : EndReason} {rest sent : List UInt8} :
      s.phase = .ended reason →
        start.undelivered = s.served.flatMap Request.encode ++ rest ++ stream.undelivered →
        stream.sent = start.sent ++ sent →
        Closing (RegisterFile.ofMap m) s.served rest sent reason →
        Standing m start s stream

variable {m : RegisterMap} {start stream stream' : Script} {s : Session}

theorem standing_start (m : RegisterMap) (start : Script) : Standing m start (ofMap m) start :=
  .waiting rfl rfl (List.append_nil _).symm

/-! ### One transfer -/

/-- A request that is carried out is either done with or to be answered. -/
theorem standing_apply {got : List UInt8} (hbooks : s.Books m)
    (hsent : stream.sent = start.sent ++ (RegisterFile.ofMap m).responses s.served) {q : Request}
    (hframe : q.encode = s.phase.begun ++ got)
    (htaken : start.undelivered =
      s.served.flatMap Request.encode ++ s.phase.begun ++ (got ++ stream.undelivered)) :
    Standing m start (s.apply q) stream := by
  have hserved : (s.apply q).served = s.served ++ [q] := s.served_apply q
  have hall : start.undelivered =
      (s.apply q).served.flatMap Request.encode ++ stream.undelivered := by
    rw [htaken, hserved, List.flatMap_append, List.flatMap_singleton, hframe]
    simp only [List.append_assoc]
  cases q with
  | read addr w =>
    refine .answering hserved ?_ hall hsent
    rw [← hbooks.registers_eq]
    rfl
  | write addr w value =>
    refine .waiting rfl (by rw [hall]; exact congrArg (· ++ _) (List.append_nil _).symm) ?_
    rw [hsent, hserved, RegisterFile.responses_append, RegisterFile.responses_singleton]
    exact congrArg (start.sent ++ ·) (List.append_nil _).symm

theorem Standing.received {got : List UInt8} (hbooks : s.Books m)
    (hwait : s.phase.distance = 1) (hlen : got.length = s.phase.demand)
    (htaken : start.undelivered =
      s.served.flatMap Request.encode ++ s.phase.begun ++ (got ++ stream.undelivered))
    (hsent : stream.sent = start.sent ++ (RegisterFile.ofMap m).responses s.served) :
    (s.received got).Books m ∧ Standing m start (s.received got) stream := by
  have hreception := reception_received hwait hlen
  generalize s.received got = s' at hreception
  have hrest : start.undelivered =
      s.served.flatMap Request.encode ++ (s.phase.begun ++ got) ++ stream.undelivered := by
    rw [htaken]
    simp only [List.append_assoc]
  cases hreception with
  | applied hfit hframe => exact ⟨hbooks.apply hfit, standing_apply hbooks hsent hframe htaken⟩
  | continued hwait' hbegun =>
    exact ⟨hbooks.of_same rfl rfl rfl rfl, .waiting hwait' (hbegun ▸ hrest) hsent⟩
  | malformed hbad =>
    exact ⟨hbooks.of_same rfl rfl rfl rfl, .ended rfl hrest hsent (.waiting (.malformed hbad) rfl)⟩

/-- The bytes that a session asked for have not come: the stream has ended, or a read has failed. -/
theorem Standing.receiveFailed {got : List UInt8} {e : TransferError} (hbooks : s.Books m)
    (hwait : s.phase.distance = 1)
    (hends : (Incoming.ofLength s.phase.demand).Ends got (.error e))
    (htaken : start.undelivered =
      s.served.flatMap Request.encode ++ s.phase.begun ++ (got ++ stream.undelivered))
    (hsent : stream.sent = start.sent ++ (RegisterFile.ofMap m).responses s.served) :
    (s.receiveFailed e).Books m ∧ Standing m start (s.receiveFailed e) stream := by
  have hrest : start.undelivered =
      s.served.flatMap Request.encode ++ (s.phase.begun ++ got) ++ stream.undelivered := by
    rw [htaken]
    simp only [List.append_assoc]
  have hbound := Phase.length_begun_add_demand_le hwait
  have hless (hlen : got.length < s.phase.demand) :
      (s.phase.begun ++ got).length < s.phase.expected := by
    rw [List.length_append]
    omega
  cases hends with
  | cut hlen =>
    simp only [Incoming.ofLength, Incoming.total, List.length_nil, Nat.zero_add]
    rw [receiveFailed_endOfStream hwait hlen]
    refine ⟨hbooks.of_same rfl rfl rfl rfl, .ended rfl hrest hsent (.waiting ?_ rfl)⟩
    by_cases hnil : s.phase.begun ++ got = []
    · rw [if_pos hnil]
      exact .peerClosed hnil
    · rw [if_neg hnil]
      exact .truncated (List.length_pos_iff.mpr hnil) (hless hlen)
        (Phase.decode_begun_append hwait hlen)
  | failed hlen hkind =>
    rw [receiveFailed_io hwait]
    refine ⟨hbooks.of_same rfl rfl rfl rfl, .ended rfl hrest hsent (.waiting ?_ rfl)⟩
    exact .failed hkind (hless hlen) (Phase.decode_begun_append hwait hlen)

/-- A transfer leads from a place where a session can stand to another one. -/
theorem Standing.step (hbooks : s.Books m) (h : Standing m start s stream) :
    (s.step stream).1.Books m ∧ Standing m start (s.step stream).1 (s.step stream).2 := by
  cases h with
  | waiting hwait htaken hsent =>
    generalize hresult : receive stream s.phase.demand = result
    obtain ⟨r, stream'⟩ := result
    obtain ⟨got, hgot, hends⟩ := Incoming.ends_collect hresult
    have hsame := (Incoming.ofLength s.phase.demand).sent_collect stream
    rw [show (Incoming.ofLength s.phase.demand).collect stream = _ from hresult] at hsame
    rw [hgot] at htaken
    rw [← hsame] at hsent
    cases r with
    | ok bytes =>
      rw [step_of_received hwait hresult]
      cases hends with
      | whole hlen => exact Standing.received hbooks hwait hlen htaken hsent
    | error e =>
      rw [step_of_receiveFailed hwait hresult]
      exact Standing.receiveFailed hbooks hwait hends htaken hsent
  | @answering done addr w hserved hphase htaken hsent =>
    generalize hresult :
      send stream (((RegisterFile.ofMap m).applyAll done).response (.read addr w)) = result
    obtain ⟨r, stream'⟩ := result
    obtain ⟨part, hfront, hpart, hwhole⟩ := Outgoing.sent_transmit hresult
    rw [← undelivered_of_send hresult] at htaken
    rw [hsent, List.append_assoc] at hpart
    cases r with
    | ok _ =>
      rw [step_of_sent hphase hresult]
      refine ⟨hbooks.of_same rfl rfl rfl rfl, .waiting rfl ?_ ?_⟩
      · rw [htaken]
        exact congrArg (· ++ _) (List.append_nil _).symm
      · change _ = start.sent ++ (RegisterFile.ofMap m).responses s.served
        rw [hpart, hwhole rfl, hserved, RegisterFile.responses_append,
          RegisterFile.responses_singleton]
        rfl
    | error e =>
      have hstep : s.step stream = (s.responseFailed e, stream') := by
        simp only [Session.step, hphase, hresult]
      rw [hstep]
      refine ⟨hbooks.of_same rfl rfl rfl rfl, .ended rfl ?_ hpart (.answering hserved rfl hfront rfl)⟩
      rw [htaken, List.append_nil]
      rfl
  | ended hphase htaken hsent hclosing =>
    have hstep : s.step stream = (s, stream) := by simp only [Session.step, hphase]
    rw [hstep]
    exact ⟨hbooks, .ended hphase htaken hsent hclosing⟩

/-! ### A whole run -/

theorem Standing.run (hbooks : s.Books m) (h : Standing m start s stream) :
    (s.run stream).1.Books m ∧ Standing m start (s.run stream).1 (s.run stream).2 := by
  fun_induction Session.run s stream with
  | case1 s stream hover => exact ⟨hbooks, h⟩
  | case2 s stream hlive ih =>
    obtain ⟨hbooks', hstanding⟩ := Standing.step hbooks h
    exact ih hbooks' hstanding

/-- Where a session stands that is over. -/
theorem Standing.closing (h : Standing m start s stream) (hover : s.isOver = true) :
    ∃ reason rest sent, s.endReason? = some reason ∧
      start.undelivered = s.served.flatMap Request.encode ++ rest ++ stream.undelivered ∧
      stream.sent = start.sent ++ sent ∧
      Closing (RegisterFile.ofMap m) s.served rest sent reason := by
  obtain ⟨reason, hreason⟩ := isOver_iff.mp hover
  cases h with
  | waiting hwait =>
    rw [hreason] at hwait
    cases hwait
  | answering _ hphase => cases hreason.symm.trans hphase
  | @ended reason' rest sent hphase htaken hsent hclosing =>
    refine ⟨reason', rest, sent, ?_, htaken, hsent, hclosing⟩
    simp only [endReason?, hphase]

/-- The accounts of a session on an arbitrary script. The data that it took from the stream are the
frames of the requests that it served and a rest. The requests alone determine what the registers
hold and what was emitted. The reason for the end says what the rest is and whether all responses were
sent in full. -/
theorem accounts (m : RegisterMap) (start : Script) :
    let course := (ofMap m).run start
    let served := course.1.served
    ∃ reason rest sent,
      course.1.endReason? = some reason ∧
      start.undelivered = served.flatMap Request.encode ++ rest ++ course.2.undelivered ∧
      course.1.frames = served.length ∧ (∀ q ∈ served, q.fit = q) ∧
      course.1.registers = (RegisterFile.ofMap m).applyAll served ∧
      course.1.output = m.transmission served ∧
      course.2.sent = start.sent ++ sent ∧
      Closing (RegisterFile.ofMap m) served rest sent reason := by
  intro course served
  obtain ⟨hbooks, hstanding⟩ := Standing.run (books_ofMap m) (standing_start m start)
  obtain ⟨reason, rest, sent, hend, htaken, hsent, hclosing⟩ :=
    hstanding.closing (isOver_run (ofMap m) start)
  exact ⟨reason, rest, sent, hend, htaken, hbooks.frames_eq, hbooks.fit_eq, hbooks.registers_eq,
    hbooks.output_eq.trans (RegisterFile.transmitted_ofMap m _), hsent, hclosing⟩

end Session

end RemoteRegisters
