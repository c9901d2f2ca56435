import Mathlib.Data.List.Forall2
import RemoteRegisters.Proofs.Bridge.Exchange
import RemoteRegisters.Session.Run

/-!
# Streams that no transfer tells apart

A bridge and a session use their streams by whole transfers only. So if no send
and no receive tells two streams apart, then no access to a bridge over them does
(`Indistinguishable.performAll`) and no session that is run on them
(`Indistinguishable.run`), although the calls that are made on the two streams
may be quite different ones.

## Main definitions

- `Agree`, `Outcome.Agrees` — two operations on states of two kinds come to the same
- `Indistinguishable` — whole transfers do not tell related streams apart
- `Bridge.Alike` — two bridges that differ in their streams only
-/

namespace RemoteRegisters

section Agreement

variable {σ τ α : Type}

/-- The same result, and states that are related. -/
def Agree (R : σ → τ → Prop) (x : α × σ) (y : α × τ) : Prop :=
  x.1 = y.1 ∧ R x.2 y.2

theorem Agree.exists_eq {R : σ → τ → Prop} {x : α × σ} {y : α × τ} (h : Agree R x y) :
    ∃ r s t, x = (r, s) ∧ y = (r, t) ∧ R s t := by
  obtain ⟨r, s⟩ := x
  obtain ⟨_, t⟩ := y
  obtain ⟨hresult, hstate⟩ := h
  cases hresult
  exact ⟨r, s, t, rfl, rfl, hstate⟩

theorem Agree.exists_of_eq {R : σ → τ → Prop} {x : α × σ} {y : α × τ} (h : Agree R x y) {r : α}
    {s : σ} (hx : x = (r, s)) : ∃ t, y = (r, t) ∧ R s t := by
  obtain ⟨_, _, t, hx', hy, hstate⟩ := h.exists_eq
  cases hx.symm.trans hx'
  exact ⟨t, hy, hstate⟩

/-- The same answer and the same log, and states that are related. -/
structure Outcome.Agrees (R : σ → τ → Prop) (o : Outcome σ α) (o' : Outcome τ α) : Prop where
  answer : o.answer = o'.answer
  log : o.log = o'.log
  state : R o.state o'.state

/-- Sends of the same bytes over related streams, and receives of as many bytes, come to the same. -/
structure Indistinguishable [ByteStream σ] [ByteStream τ] (R : σ → τ → Prop) : Prop where
  sends : ∀ {s t}, R s t → ∀ bytes, Agree R (send s bytes) (send t bytes)
  receives : ∀ {s t}, R s t → ∀ n, Agree R (receive s n) (receive t n)

end Agreement

namespace Bridge

/-- Two bridges with the same state over related streams. -/
structure Alike {σ τ : Type} (R : σ → τ → Prop) (b : Bridge σ) (b' : Bridge τ) : Prop where
  stream : R b.stream b'.stream
  faults : b.faults = b'.faults
  broken : b.broken = b'.broken
  hooked : b.hooked = b'.hooked
  hookCalls : b.hookCalls = b'.hookCalls

variable {σ τ : Type} {R : σ → τ → Prop} {b : Bridge σ} {b' : Bridge τ}

theorem Alike.withStream (h : Alike R b b') {s : σ} {t : τ} (hst : R s t) :
    Alike R { b with stream := s } { b' with stream := t } :=
  ⟨hst, h.faults, h.broken, h.hooked, h.hookCalls⟩

theorem Alike.lose (h : Alike R b b') (c : Call) (e : TransferError) :
    (b.lose c e).Agrees (Alike R) (b'.lose c e) where
  answer := rfl
  log := rfl
  state :=
    { stream := h.stream
      faults := congrArg (· + 1) h.faults
      broken := rfl
      hooked := h.hooked
      hookCalls := by
        simp only [Bridge.lose, recordFault]
        rw [h.hooked, h.broken, h.hookCalls] }

end Bridge

namespace Indistinguishable

variable {σ τ : Type}

section Accesses

variable [ByteStream σ] [ByteStream τ] {R : σ → τ → Prop}

theorem exchange (hR : Indistinguishable R) {s : σ} {t : τ} (h : R s t) (c : Call) (a : Placement) :
    Agree R (c.exchange a s) (c.exchange a t) := by
  unfold Call.exchange
  obtain ⟨sent, s', t', hs, ht, hlater⟩ := (hR.sends h (c.request a).encode).exists_eq
  rw [hs, ht]
  cases sent with
  | error e => exact ⟨rfl, hlater⟩
  | ok _ =>
    cases c.operation with
    | write _ => exact ⟨rfl, hlater⟩
    | read =>
      obtain ⟨got, s'', t'', hs', ht', hlast⟩ := (hR.receives hlater a.width.bytes).exists_eq
      simp only [hs', ht']
      cases got <;> exact ⟨rfl, hlast⟩

theorem perform (hR : Indistinguishable R) {b : Bridge σ} {b' : Bridge τ}
    (h : Bridge.Alike R b b') (c : Call) :
    (b.perform c).Agrees (Bridge.Alike R) (b'.perform c) := by
  have haccess := b.access_perform c
  generalize b.perform c = o at haccess
  cases haccess with
  | refused hplace =>
    rw [Bridge.perform_of_refused hplace]
    exact ⟨rfl, rfl, h⟩
  | abandoned hplace hbroken =>
    rw [Bridge.perform_of_access (.abandoned hplace (h.broken.symm.trans hbroken))]
    exact h.lose c .abandoned
  | failed hplace hintact hexchange =>
    obtain ⟨t, hexchange', hst⟩ := (hR.exchange h.stream c _).exists_of_eq hexchange
    rw [Bridge.perform_of_access (.failed hplace (h.broken.symm.trans hintact) hexchange')]
    exact (h.withStream hst).lose c _
  | completed hplace hintact hexchange =>
    obtain ⟨t, hexchange', hst⟩ := (hR.exchange h.stream c _).exists_of_eq hexchange
    rw [Bridge.perform_of_access (.completed hplace (h.broken.symm.trans hintact) hexchange')]
    exact ⟨rfl, rfl, h.withStream hst⟩

/-- No accesses tell bridges apart that differ only in streams that no transfer tells apart. -/
theorem performAll (hR : Indistinguishable R) {b : Bridge σ} {b' : Bridge τ}
    (h : Bridge.Alike R b b') (cs : List Call) :
    List.Forall₂ (Outcome.Agrees (Bridge.Alike R)) (b.performAll cs) (b'.performAll cs) := by
  induction cs generalizing b b' with
  | nil => exact .nil
  | cons c cs ih =>
    have hfirst := hR.perform h c
    exact .cons hfirst (ih hfirst.state)

theorem step (hR : Indistinguishable R) {stream : σ} {stream' : τ} (h : R stream stream')
    (s : Session) : Agree R (s.step stream) (s.step stream') := by
  unfold Session.step
  split
  · exact ⟨rfl, h⟩
  · rename_i response _
    obtain ⟨sent, s', t', hs, ht, hlater⟩ := (hR.sends h response).exists_eq
    rw [hs, ht]
    cases sent <;> exact ⟨rfl, hlater⟩
  · obtain ⟨got, s', t', hs, ht, hlater⟩ := (hR.receives h s.phase.demand).exists_eq
    rw [hs, ht]
    cases got <;> exact ⟨rfl, hlater⟩

end Accesses

/-- No session tells streams apart that no transfer tells apart. -/
theorem run [FiniteStream σ] [FiniteStream τ] {R : σ → τ → Prop} (hR : Indistinguishable R)
    {stream : σ} {stream' : τ} (h : R stream stream') (s : Session) :
    Agree R (s.run stream) (s.run stream') := by
  fun_induction s.run stream generalizing stream' with
  | case1 s stream hover =>
    rw [Session.run, if_pos hover]
    exact ⟨rfl, h⟩
  | case2 s stream hover ih =>
    obtain ⟨hnext, hlater⟩ := hR.step h s
    rw [Session.run.eq_def s stream', if_neg hover, ← hnext]
    exact ih hlater

end Indistinguishable

end RemoteRegisters
