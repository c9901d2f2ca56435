import RemoteRegisters.Session.Basic
import RemoteRegisters.Stream.Transfer

/-!
# Sessions over a stream

`Session.step` makes the one transfer that the phase of a session asks for, and `Session.run` makes
steps until the session has ended. On a finite stream the session does end: a step takes bytes out
of the supply of the stream, or leaves the supply as it is and brings the session closer to waiting
for the next frame or to its end.
-/

namespace RemoteRegisters.Session

variable {σ : Type}

def step [ByteStream σ] (s : Session) (stream : σ) : Session × σ :=
  match s.phase with
  | .ended _ => (s, stream)
  | .responding response =>
      match send stream response with
      | (.ok (), stream') => (s.responded, stream')
      | (.error e, stream') => (s.responseFailed e, stream')
  | phase =>
      match receive stream phase.demand with
      | (.ok bytes, stream') => (s.received bytes, stream')
      | (.error e, stream') => (s.receiveFailed e, stream')

/-- How far a phase is from the end when the stream delivers nothing more. -/
def Phase.distance : Phase → Nat
  | idle => 1
  | header _ => 1
  | payload .. => 1
  | responding _ => 2
  | ended _ => 0

def isOver (s : Session) : Bool :=
  s.phase.distance == 0

theorem isOver_iff {s : Session} : s.isOver = true ↔ ∃ reason, s.phase = .ended reason := by
  unfold isOver Phase.distance
  cases s.phase <;> simp

theorem Phase.demand_pos {p : Phase} (h : p.distance = 1) : 0 < p.demand := by
  cases p with
  | idle => decide
  | header _ => exact Nat.succ_pos 4
  | payload _ width => exact width.bytes_pos
  | responding _ => cases h
  | ended _ => cases h

@[simp]
theorem distance_finish (s : Session) (reason : EndReason) :
    (s.finish reason).phase.distance = 0 :=
  rfl

theorem distance_receiveFailed {s : Session} (h : s.phase.distance = 1) (e : TransferError) :
    (s.receiveFailed e).phase.distance = 0 := by
  unfold receiveFailed
  split
  · split <;> rfl
  · rfl
  · rfl
  · simp_all [Phase.distance]
  · simp_all [Phase.distance]

/-- A step of a session that is not over takes bytes out of the supply of the stream, or keeps the
supply and shortens the distance to the end. -/
theorem step_decreases [FiniteStream σ] {s : Session} (h : ¬s.isOver = true) (stream : σ) :
    Prod.Lex (· < ·) (· < ·)
      (FiniteStream.supply (s.step stream).2, (s.step stream).1.phase.distance)
      (FiniteStream.supply stream, s.phase.distance) := by
  have shrink {a b m n : Nat} (hab : a ≤ b) (hmn : a = b → m < n) :
      Prod.Lex (· < ·) (· < ·) (a, m) (b, n) := by
    rcases Nat.lt_or_eq_of_le hab with less | same
    · exact .left _ _ less
    · subst same
      exact .right _ (hmn rfl)
  unfold step
  split
  · rename_i reason hp
    exact absurd (isOver_iff.mpr ⟨reason, hp⟩) h
  · rename_i response hp
    have bound := (Outgoing.ofBytes response).supply_transmit_le stream
    split <;> rename_i hs <;> simp only [send] at hs <;> rw [hs] at bound
    · exact shrink bound fun _ => by rw [hp]; exact Nat.lt_succ_self 1
    · exact shrink bound fun _ => by rw [hp]; exact Nat.succ_pos 1
  · rename_i notEnded notResponding
    have waiting : s.phase.distance = 1 := by
      cases hp : s.phase with
      | idle => rfl
      | header _ => rfl
      | payload _ _ => rfl
      | responding response => exact absurd hp (notResponding response)
      | ended reason => exact absurd hp (notEnded reason)
    split <;> rename_i hr <;> simp only [receive] at hr
    · have taken := Incoming.supply_of_collect hr
      have positive := Phase.demand_pos waiting
      simp only [Incoming.ofLength] at taken
      exact .left _ _ (by dsimp only; omega)
    · have bound := (Incoming.ofLength s.phase.demand).supply_collect_le stream
      rw [hr] at bound
      exact shrink bound fun _ => by simp [distance_receiveFailed waiting, waiting]

def run [FiniteStream σ] (s : Session) (stream : σ) : Session × σ :=
  if s.isOver then (s, stream)
  else run (s.step stream).1 (s.step stream).2
termination_by (FiniteStream.supply stream, s.phase.distance)
decreasing_by exact step_decreases ‹_› stream

theorem isOver_run [FiniteStream σ] (s : Session) (stream : σ) : (s.run stream).1.isOver = true := by
  fun_induction run s stream with
  | case1 s stream ended => exact ended
  | case2 s stream _ ih => exact ih

end RemoteRegisters.Session
