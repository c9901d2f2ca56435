import RemoteRegisters.Proofs.Session.Phases
import RemoteRegisters.Proofs.Session.Transcript

/-!
# What one step of a session does

A step makes one transfer at most, the one that the phase asks for, and the session
takes up what came of it. `Session.Stepped` has a case for each way in which this can
end, so that what steps preserve is proved by going through them.

Of the session itself a step leaves three kinds of trace: a request is carried out,
or the phase moves on, or the session ends (`Session.Moved`).

## Main definitions

- `Session.Stepped` — a step, by its transfer and what came of it
- `Session.Moved` — a step, by what it does to the session
-/

namespace RemoteRegisters.Session

/-! ### The transfer of a step -/

section Transfers

variable {σ : Type} [ByteStream σ]

/-- A step leads from a session on a stream to this session and this stream. -/
inductive Stepped (s : Session) (stream : σ) : Session × σ → Prop where
  | ended {reason : EndReason} : s.phase = .ended reason → Stepped s stream (s, stream)
  | responded {response : List UInt8} {stream' : σ} :
      s.phase = .responding response → send stream response = (.ok (), stream') →
        Stepped s stream (s.responded, stream')
  | responseFailed {response : List UInt8} {e : TransferError} {stream' : σ} :
      s.phase = .responding response → send stream response = (.error e, stream') →
        Stepped s stream (s.responseFailed e, stream')
  | received {bytes : List UInt8} {stream' : σ} :
      s.phase.distance = 1 → receive stream s.phase.demand = (.ok bytes, stream') →
        Stepped s stream (s.received bytes, stream')
  | receiveFailed {e : TransferError} {stream' : σ} :
      s.phase.distance = 1 → receive stream s.phase.demand = (.error e, stream') →
        Stepped s stream (s.receiveFailed e, stream')

theorem stepped_of_waiting {s : Session} (hwait : s.phase.distance = 1) (stream : σ) :
    s.Stepped stream (s.step stream) := by
  cases hreceive : receive stream s.phase.demand with
  | mk r stream' =>
    cases r with
    | ok bytes =>
      rw [step_of_received hwait hreceive]
      exact .received hwait hreceive
    | error e =>
      rw [step_of_receiveFailed hwait hreceive]
      exact .receiveFailed hwait hreceive

theorem stepped_step (s : Session) (stream : σ) : s.Stepped stream (s.step stream) := by
  cases hphase : s.phase with
  | idle => exact stepped_of_waiting (by rw [hphase]; rfl) stream
  | header kind => exact stepped_of_waiting (by rw [hphase]; rfl) stream
  | payload addr w => exact stepped_of_waiting (by rw [hphase]; rfl) stream
  | ended reason =>
    simp only [step, hphase]
    exact .ended hphase
  | responding response =>
    simp only [step, hphase]
    cases hsend : send stream response with
    | mk r stream' =>
      cases r with
      | ok _ => exact .responded hphase hsend
      | error e => exact .responseFailed hphase hsend

end Transfers

/-! ### The session behind a step -/

/-- What a session that goes on can become: it has carried a request out, or is in another phase, or
has ended. -/
inductive Moved (s : Session) : Session → Prop where
  | applied {q : Request} : q.fit = q → Moved s (s.apply q)
  | continued {p : Phase} : p.distance ≠ 0 → Moved s { s with phase := p }
  | finished (reason : EndReason) : Moved s (s.finish reason)

theorem exists_receiveFailed_eq_finish {s : Session} (hwait : s.phase.distance = 1)
    (e : TransferError) : ∃ reason, s.receiveFailed e = s.finish reason := by
  obtain hphase | ⟨kind, hphase⟩ | ⟨addr, w, hphase⟩ := Phase.waiting_cases hwait <;>
    simp only [receiveFailed, hphase]
  · split <;> exact ⟨_, rfl⟩
  · exact ⟨_, rfl⟩
  · exact ⟨_, rfl⟩

theorem moved_of_received {s : Session} {bytes : List UInt8} (hwait : s.phase.distance = 1)
    (hlen : bytes.length = s.phase.demand) : s.Moved (s.received bytes) := by
  have hreception := reception_received hwait hlen
  generalize s.received bytes = s' at hreception ⊢
  cases hreception with
  | applied hfit _ => exact .applied hfit
  | continued hwait' _ => exact .continued (by omega)
  | malformed _ => exact .finished _

theorem moved_step {s : Session} (hlive : ¬s.isOver = true) (stream : Script) :
    s.Moved (s.step stream).1 := by
  have hstep := s.stepped_step stream
  generalize s.step stream = course at hstep ⊢
  cases hstep with
  | ended hphase => exact absurd (isOver_iff.mpr ⟨_, hphase⟩) hlive
  | responded _ _ => exact .continued (by decide)
  | responseFailed _ _ => exact .finished _
  | received hwait hreceive =>
    obtain ⟨got, -, hends⟩ := Incoming.ends_collect hreceive
    cases hends with
    | whole hlen => exact moved_of_received hwait hlen
  | @receiveFailed e _ hwait _ =>
    obtain ⟨reason, hfinish⟩ := exists_receiveFailed_eq_finish hwait e
    rw [hfinish]
    exact .finished reason

end RemoteRegisters.Session
