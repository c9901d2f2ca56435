import RemoteRegisters.Session.Run

/-!
# A session at the far end of a stream

`Remote` is a session together with the bytes under way to it and from it, on a connection that
loses nothing and keeps the order. Bytes that reach it are taken up at once, as far as they complete
what the session needs (`Remote.settle`); the responses wait in the outbox until they are read.

Seen from the near end a `Remote` is a byte stream. It takes all bytes that are written to it.
-/

namespace RemoteRegisters

/-- The response that a session has to send next, if it has one. -/
def Session.response? (s : Session) : Option (List UInt8) :=
  match s.phase with
  | .responding response => some response
  | _ => none

/-- A session and the bytes on their way. -/
structure Remote where
  session : Session
  /-- Bytes from the near end that the session has not taken up yet. -/
  inbox : List UInt8 := []
  /-- Bytes from the session that the near end has not read yet. -/
  outbox : List UInt8 := []
  deriving DecidableEq, Repr

namespace Remote

def ofMap (m : RegisterMap) : Remote where
  session := .ofMap m

/-- Lets the session go on until it needs bytes that have not come, or has ended. -/
def settle (r : Remote) : Remote :=
  if r.session.isOver then r
  else
    match _ : r.session.response? with
    | some response =>
        settle { r with session := r.session.responded, outbox := r.outbox ++ response }
    | none =>
        let demand := r.session.phase.demand
        if demand ≤ r.inbox.length then
          settle
            { r with
              session := r.session.received (r.inbox.take demand)
              inbox := r.inbox.drop demand }
        else r
termination_by (r.inbox.length, r.session.phase.distance)
decreasing_by
  · have responding : r.session.phase = .responding response := by
      have h := ‹r.session.response? = some response›
      unfold Session.response? at h
      split at h
      · cases h
        assumption
      · cases h
    apply Prod.Lex.right
    rw [responding]
    exact Nat.lt_succ_self 1
  · have waiting : r.session.phase.distance = 1 := by
      have h := ‹r.session.response? = none›
      have notOver := ‹¬r.session.isOver = true›
      unfold Session.response? at h
      rw [Session.isOver_iff] at notOver
      cases hp : r.session.phase with
      | idle => rfl
      | header _ => rfl
      | payload _ _ => rfl
      | responding response => simp [hp] at h
      | ended reason => exact absurd ⟨reason, hp⟩ notOver
    have positive := Session.Phase.demand_pos waiting
    have : r.session.phase.demand ≤ r.inbox.length := by assumption
    apply Prod.Lex.left
    simp only [List.length_drop]
    omega

def deliver (r : Remote) (bytes : List UInt8) : Remote :=
  { r with inbox := r.inbox ++ bytes }.settle

/-- The near end closes the stream. What the session makes of it depends on whether a frame has been
begun. -/
def hangUp (r : Remote) : Session :=
  if r.session.isOver then r.session
  else r.session.receiveFailed (.endOfStream r.session.phase.demand r.inbox.length)

instance : ByteStream Remote where
  read r n := (.ok (r.outbox.take n), { r with outbox := r.outbox.drop n })
  write r bytes := (.ok bytes.length, r.deliver bytes)
  flush r := (.ok (), r)
  patience _ := 0
  length_of_read {s s' n bytes} h := by
    cases h
    simp only [List.length_take]
    omega
  le_of_write {s s' bytes n} h := by
    cases h
    exact Nat.le_refl _
  patience_of_read {s s' n e} h _ := by cases h
  patience_of_write {s s' bytes e} h _ := by cases h

end Remote

end RemoteRegisters
