import RemoteRegisters.Proofs.Session.Faults
import RemoteRegisters.Proofs.Session.Steps
import RemoteRegisters.Proofs.Stream.Indistinguishable
import RemoteRegisters.Proofs.Stream.Outcome

/-!
# A session comes to an end

No counter bounds the steps of a session, nor the calls of its transfers. On a
script both are bounded all the same. A step takes bytes out of what the script
still delivers, or brings the session closer to its end (`Session.measure_step_lt`).
And a call moves a byte, uses up a step of the script, or belongs to one of the few
that each phase may make besides (`Session.budget_step_le`): a response has no more
bytes than the part of its request that was read last, and so the reads pay for it.

## Main definitions

- `Session.afterSteps` — a session and its stream after a number of steps
- `Session.budget` — the calls that were made and those that may still be made
-/

namespace RemoteRegisters

/-! ### Recorded streams -/

namespace Recorded

variable {σ : Type}

/-- The calls on this stream are recorded. -/
def Records (s : Recorded σ) (stream : σ) : Prop :=
  s.stream = stream

/-- No transfer notices that its calls are recorded. -/
theorem indistinguishable [ByteStream σ] : Indistinguishable (@Records σ) where
  sends := by
    rintro s _ rfl bytes
    cases hsend : send s bytes with
    | mk r s' =>
      rw [send_of_recorded hsend]
      exact ⟨rfl, rfl⟩
  receives := by
    rintro s _ rfl n
    cases hreceive : receive s n with
    | mk r s' =>
      rw [receive_of_recorded hreceive]
      exact ⟨rfl, rfl⟩

end Recorded

/-- Recorded or not, a session takes the same course. -/
theorem Session.run_of_recorded {σ : Type} [FiniteStream σ] {s s' : Session}
    {stream stream' : Recorded σ} (h : s.run stream = (s', stream')) :
    s.run stream.stream = (s', stream'.stream) := by
  have hrecords : stream.Records stream.stream := rfl
  obtain ⟨hsame, hstream⟩ := Recorded.indistinguishable.run hrecords s
  rw [h] at hsame hstream
  exact Prod.ext hsame.symm hstream.symm

/-! ### What transfers cost -/

section Costs

variable {s s' : Recorded Script}

/-- The writes of a send are paid for by its bytes and by steps of the script. -/
theorem cost_of_send {bytes : List UInt8} {r : Except TransferError Unit}
    (h : send s bytes = (r, s')) :
    s'.calls.length + s'.stream.writes.length ≤
        s.calls.length + s.stream.writes.length + bytes.length + 1 ∧
      s'.stream.reads = s.stream.reads := by
  have hreads := (Outgoing.ofBytes bytes).reads_transmit s.stream
  rw [← send, send_of_recorded h] at hreads
  exact ⟨Outgoing.length_calls_transmit_le h, hreads⟩

/-- The reads of a receive are paid for by its bytes and by steps of the script. -/
theorem cost_of_receive {n : Nat} {r : Except TransferError (List UInt8)}
    (h : receive s n = (r, s')) :
    s'.calls.length + s'.stream.reads.length ≤ s.calls.length + s.stream.reads.length + n ∧
      s'.stream.writes = s.stream.writes ∧
      ∃ got, s.stream.undelivered = got ++ s'.stream.undelivered ∧
        (Incoming.ofLength n).Ends got r := by
  have hplain := receive_of_recorded h
  obtain ⟨hwrites, -, -⟩ := (Incoming.ofLength n).frame_collect s.stream
  rw [← receive, hplain] at hwrites
  exact ⟨Incoming.length_calls_collect_le h, hwrites, Incoming.ends_collect hplain⟩

end Costs

/-- Every frame has at least the bytes of a header. -/
theorem Request.headerLength_mul_le (rs : List Request) :
    headerLength * rs.length ≤ (rs.flatMap encode).length := by
  induction rs with
  | nil => exact Nat.le_refl _
  | cons r rs ih =>
    have hfirst := r.headerLength_le_frameLength
    rw [List.flatMap_cons, List.length_append, length_encode, List.length_cons, Nat.mul_succ,
      Nat.add_comm]
    exact Nat.add_le_add hfirst ih

namespace Session

/-! ### Steps -/

section Steps

variable {σ : Type}

/-- A session and its stream after a number of steps. -/
def afterSteps [ByteStream σ] : (count : Nat) → Session → σ → Session × σ
  | 0, s, stream => (s, stream)
  | count + 1, s, stream => afterSteps count (s.step stream).1 (s.step stream).2

theorem Phase.distance_le (p : Phase) : p.distance ≤ 2 := by
  cases p with
  | ended _ => exact Nat.zero_le 2
  | responding _ => exact Nat.le_refl 2
  | _ => exact Nat.le_succ 1

/-- Three steps at most stand between two bytes that are taken out of the supply. -/
theorem measure_step_lt [FiniteStream σ] {s : Session} (h : ¬s.isOver = true) (stream : σ) :
    3 * FiniteStream.supply (s.step stream).2 + (s.step stream).1.phase.distance <
      3 * FiniteStream.supply stream + s.phase.distance := by
  have hbound := (s.step stream).1.phase.distance_le
  obtain hless | ⟨hsame, hcloser⟩ := Prod.lex_def.mp (step_decreases h stream)
  · dsimp only at hless
    omega
  · dsimp only at hsame hcloser
    omega

theorem exists_afterSteps_eq_run [FiniteStream σ] (s : Session) (stream : σ) :
    ∃ count, count ≤ 3 * FiniteStream.supply stream + s.phase.distance ∧
      s.afterSteps count stream = s.run stream := by
  fun_induction s.run stream with
  | case1 s stream hover => exact ⟨0, Nat.zero_le _, rfl⟩
  | case2 s stream hlive ih =>
    obtain ⟨count, hcount, hrun⟩ := ih
    exact ⟨count + 1, Nat.lt_of_le_of_lt hcount (measure_step_lt hlive stream), hrun⟩

end Steps

/-! ### Calls -/

/-- The calls that a phase may make besides those that bytes and steps of the script pay for. -/
def Phase.allowance : Phase → Nat
  | ended _ => 0
  | responding response => response.length + 6
  | _ => 5

/-- The calls that were made, and a bound on those that are still made. -/
def budget (s : Session) (stream : Recorded Script) : Nat :=
  stream.calls.length + stream.stream.reads.length + stream.stream.writes.length
    + 2 * stream.stream.undelivered.length + s.phase.allowance

theorem Phase.demand_le_five {p : Phase} (h : p.distance = 1) : p.demand ≤ 5 := by
  obtain rfl | ⟨kind, rfl⟩ | ⟨addr, w, rfl⟩ := waiting_cases h
  · exact Nat.le_add_left 1 4
  · exact Nat.le_refl 5
  · exact Nat.le_succ_of_le w.bytes_le_four

theorem Phase.allowance_of_waiting {p : Phase} (h : p.distance = 1) : p.allowance = 5 := by
  obtain rfl | ⟨kind, rfl⟩ | ⟨addr, w, rfl⟩ := waiting_cases h <;> rfl

theorem Phase.allowance_of_over {p : Phase} (h : p.distance = 0) : p.allowance = 0 := by
  cases p <;> first | rfl | cases h

/-- The bytes that a session has asked for pay for the response that they may lead to. -/
theorem allowance_received_le {s : Session} {bytes : List UInt8} (hwait : s.phase.distance = 1)
    (hlen : bytes.length = s.phase.demand) :
    (s.received bytes).phase.allowance ≤ 5 + s.phase.demand := by
  obtain hphase | ⟨kind, hphase⟩ | ⟨addr, w, hphase⟩ := Phase.waiting_cases hwait <;>
    rw [hphase] at hlen ⊢
  · obtain ⟨tag, rfl⟩ := List.length_eq_one_iff.mp hlen
    simp only [received, hphase]
    split
    · exact Nat.zero_le _
    · exact Nat.le_succ 5
  · simp only [received, hphase]
    split
    · exact Nat.zero_le _
    · rename_i h _
      split
      · -- a read is answered with at most four bytes
        rw [phase_apply]
        have hfour := h.width.bytes_le_four
        simp only [Phase.allowance, length_encodeValue, Phase.demand, headerLength]
        omega
      · exact Nat.le_add_right 5 _
  · rw [Remote.received_payload hphase hlen]
    exact Nat.le_add_right 5 _

/-- A step makes no call that is not paid for. -/
theorem budget_step_le (s : Session) (stream : Recorded Script) :
    (s.step stream).1.budget (s.step stream).2 ≤ s.budget stream := by
  have hstep := s.stepped_step stream
  generalize s.step stream = course at hstep ⊢
  cases hstep with
  | ended _ => exact Nat.le_refl _
  | responded hphase hsend =>
    obtain ⟨hcalls, hreads⟩ := cost_of_send hsend
    simp only [budget, responded, hphase, Phase.allowance, Script.undelivered, hreads]
    omega
  | responseFailed hphase hsend =>
    obtain ⟨hcalls, hreads⟩ := cost_of_send hsend
    simp only [budget, responseFailed, finish, hphase, Phase.allowance, Script.undelivered, hreads]
    omega
  | received hwait hreceive =>
    obtain ⟨hcalls, hwrites, got, htaken, hends⟩ := cost_of_receive hreceive
    cases hends with
    | whole hlen =>
      have hallowance := allowance_received_le hwait hlen
      simp only [Incoming.ofLength, List.nil_append] at hlen ⊢
      simp only [budget, hwrites, htaken, List.length_append, Phase.allowance_of_waiting hwait]
      omega
  | @receiveFailed e stream' hwait hreceive =>
    obtain ⟨hcalls, hwrites, got, htaken, -⟩ := cost_of_receive hreceive
    have hdemand := Phase.demand_le_five hwait
    have hover := Phase.allowance_of_over (distance_receiveFailed hwait e)
    simp only [budget, hwrites, htaken, List.length_append, Phase.allowance_of_waiting hwait, hover]
    omega

theorem budget_run_le (s : Session) (stream : Recorded Script) :
    (s.run stream).1.budget (s.run stream).2 ≤ s.budget stream := by
  fun_induction s.run stream with
  | case1 s stream hover => exact Nat.le_refl _
  | case2 s stream hlive ih => exact Nat.le_trans ih (s.budget_step_le stream)

/-! ### Frames -/

/-- The bytes of the frames that a session has served were all taken from the script. -/
theorem Standing.headerLength_mul_frames_le {m : RegisterMap} {start stream : Script} {s : Session}
    (hbooks : s.Books m) (h : Standing m start s stream) :
    headerLength * s.frames ≤ start.undelivered.length := by
  rw [hbooks.frames_eq]
  refine Nat.le_trans (Request.headerLength_mul_le s.served) ?_
  have hfront : ∃ later, start.undelivered = s.served.flatMap Request.encode ++ later := by
    cases h with
    | waiting _ htaken _ => exact ⟨_, htaken.trans (List.append_assoc ..)⟩
    | answering _ _ htaken _ => exact ⟨_, htaken⟩
    | ended _ htaken _ _ => exact ⟨_, htaken.trans (List.append_assoc ..)⟩
  obtain ⟨later, htaken⟩ := hfront
  rw [htaken, List.length_append]
  exact Nat.le_add_right _ _

/-- A session on a script comes to an end, whatever the script does. It takes three steps at most for
each byte of data, and one more. Its transfers make at most two calls for each byte, one for each read
or write step of the script, and five more. And it has served at most one frame for every six bytes of
data, which are the bytes of a header. -/
theorem run_ends (m : RegisterMap) (start : Script) :
    let data := start.undelivered.length
    let course := (ofMap m).run start
    (∃ count reason, count ≤ 3 * data + 1 ∧
      (ofMap m).afterSteps count start = course ∧ course.1.phase = .ended reason) ∧
    (∃ calls, (ofMap m).run (⟨start, []⟩ : Recorded Script) = (course.1, ⟨course.2, calls⟩) ∧
      calls.length ≤ start.reads.length + start.writes.length + 2 * data + 5) ∧
    course.1.frames ≤ data / 6 := by
  intro data course
  refine ⟨?_, ?_, ?_⟩
  · obtain ⟨count, hcount, hrun⟩ := (ofMap m).exists_afterSteps_eq_run start
    obtain ⟨reason, hended⟩ := isOver_iff.mp (isOver_run (ofMap m) start)
    exact ⟨count, reason, hcount, hrun, hended⟩
  · cases hrun : (ofMap m).run (⟨start, []⟩ : Recorded Script) with
    | mk s stream =>
      have hbudget := (ofMap m).budget_run_le ⟨start, []⟩
      have hplain : course = (s, stream.stream) := run_of_recorded hrun
      rw [hplain]
      refine ⟨stream.calls, rfl, ?_⟩
      rw [hrun] at hbudget
      simp only [budget, List.length_nil, ofMap, Phase.allowance] at hbudget
      omega
  · obtain ⟨hbooks, hstanding⟩ := Standing.run (books_ofMap m) (standing_start m start)
    have hframes := hstanding.headerLength_mul_frames_le hbooks
    refine (Nat.le_div_iff_mul_le (by decide)).mpr ?_
    rwa [Nat.mul_comm]

end Session

end RemoteRegisters
