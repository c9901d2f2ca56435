import RemoteRegisters.Proofs.Stream.Calls

/-!
# Programs that are stopped between two calls on a stream

A bridge and a session each make their calls at one go. To say what happens while
both are at work, they have to be looked at between two calls. `Dialogue` is the
shape that both share: a program that makes one transfer after the other. A
`Suspended` program is one that is stopped in the middle of a transfer, and
`Suspended.Advances` is what one call on its stream makes of it.

Stopping changes nothing: what is left of the program comes to the same before
and after each call, over any stream (`Suspended.Advances.resume_eq`).

## Main definitions

- `Dialogue` — the programs that make one transfer after the other
- `Suspended` — such a program between two calls, `Suspended.Advances` — one call
- `Suspended.resume` — what is left of a program, run to its end
-/

namespace RemoteRegisters

/-- What a program does next on its stream. -/
inductive Turn where
  | rest
  | send (bytes : List UInt8)
  | receive (n : Nat)

/-- A transfer of which some calls have been made. -/
inductive Transfer where
  | rest
  | sending (o : Outgoing)
  | receiving (i : Incoming)

def Turn.transfer : Turn → Transfer
  | rest => .rest
  | send bytes => .sending (.ofBytes bytes)
  | receive n => .receiving (.ofLength n)

namespace Transfer

/-- The bytes that are still to be written. -/
def unsent : Transfer → List UInt8
  | rest => []
  | sending o => o.rest
  | receiving _ => []

/-- The bytes that have come. -/
def got : Transfer → List UInt8
  | rest => []
  | sending _ => []
  | receiving i => i.got

end Transfer

/-- The states of a program that makes one transfer after the other. -/
class Dialogue (κ : Type) where
  turn : κ → Turn
  /-- The state behind the transfer, with the bytes that a receive has brought. -/
  proceed : κ → List UInt8 → κ
  receive_pos {c : κ} {n : Nat} : turn c = .receive n → 0 < n

/-- A program between two calls on its stream. -/
structure Suspended (κ : Type) where
  control : κ
  transfer : Transfer

namespace Suspended

open Dialogue

variable {κ : Type} [Dialogue κ]

/-- A program before the first call of its next transfer. -/
def enter (c : κ) : Suspended κ :=
  ⟨c, (turn c).transfer⟩

@[simp]
theorem got_enter (c : κ) : (enter c).transfer.got = [] := by
  rw [enter]
  cases turn c <;> rfl

/-- One call on the stream, which moves at least one byte or flushes. -/
inductive Advances {σ : Type} [ByteStream σ] : Suspended κ → σ → Suspended κ → σ → Prop where
  | wrote {c : κ} {o : Outgoing} {n : Nat} {s s' : σ} :
      o.rest ≠ [] → ByteStream.write s o.rest = (.ok n, s') → n ≠ 0 →
        Advances ⟨c, .sending o⟩ s ⟨c, .sending (o.advance n)⟩ s'
  | flushed {c : κ} {o : Outgoing} {s s' : σ} :
      o.rest = [] → ByteStream.flush s = (.ok (), s') →
        Advances ⟨c, .sending o⟩ s (enter (proceed c [])) s'
  | got {c : κ} {i : Incoming} {bytes : List UInt8} {s s' : σ} :
      ByteStream.read s i.missing = (.ok bytes, s') → bytes ≠ [] → bytes.length < i.missing →
        Advances ⟨c, .receiving i⟩ s ⟨c, .receiving (i.absorb bytes)⟩ s'
  | completed {c : κ} {i : Incoming} {bytes : List UInt8} {s s' : σ} :
      ByteStream.read s i.missing = (.ok bytes, s') → bytes ≠ [] → bytes.length = i.missing →
        Advances ⟨c, .receiving i⟩ s (enter (proceed c (i.got ++ bytes))) s'

/-! ### Nothing is lost by stopping -/

section Resume

variable {σ ρ : Type} [ByteStream σ] (course : κ → σ → ρ) (failed : κ → TransferError → σ → ρ)

/-- What a program comes to from here: the transfer is completed, and then the program takes its
course, or what it does when the transfer fails. -/
def resume (p : Suspended κ) (s : σ) : ρ :=
  match p.transfer with
  | .rest => course p.control s
  | .sending o =>
      match o.transmit s with
      | (.ok (), s') => course (proceed p.control []) s'
      | (.error e, s') => failed p.control e s'
  | .receiving i =>
      match i.collect s with
      | (.ok bytes, s') => course (proceed p.control bytes) s'
      | (.error e, s') => failed p.control e s'

/-- The course of a program makes the transfers that the dialogue says, one after the other. -/
def Conducts : Prop :=
  ∀ (c : κ) (s : σ), (enter c).resume course failed s = course c s

variable {course failed}

theorem resume_enter_of_rest {c : κ} {s : σ} (h : turn c = .rest) :
    (enter c).resume course failed s = course c s := by
  rw [enter, h]
  rfl

theorem resume_enter_of_send {c : κ} {s : σ} {bytes : List UInt8} (h : turn c = .send bytes) :
    (enter c).resume course failed s =
      match send s bytes with
      | (.ok (), s') => course (proceed c []) s'
      | (.error e, s') => failed c e s' := by
  rw [enter, h]
  rfl

theorem resume_enter_of_receive {c : κ} {s : σ} {n : Nat} (h : turn c = .receive n) :
    (enter c).resume course failed s =
      match receive s n with
      | (.ok bytes, s') => course (proceed c bytes) s'
      | (.error e, s') => failed c e s' := by
  rw [enter, h]
  rfl

/-- A call does not change what the program comes to. -/
theorem Advances.resume_eq (hconducts : Conducts course failed) {p p' : Suspended κ} {s s' : σ}
    (h : p.Advances s p' s') : p.resume course failed s = p'.resume course failed s' := by
  cases h with
  | wrote hrest hwrite hn =>
    simp only [resume, Outgoing.transmit_of_write hrest hwrite, if_neg hn]
  | flushed hdone hflush =>
    rw [hconducts]
    simp only [resume, Outgoing.transmit_of_flush hdone hflush]
    rfl
  | got hread hbytes hlen =>
    have hmissing := Nat.ne_of_gt (Nat.zero_lt_of_lt hlen)
    simp only [resume, Incoming.collect_of_read hmissing hread, if_neg hbytes]
  | @completed c i bytes _ _ hread hbytes hlen =>
    have hmissing : i.missing ≠ 0 := hlen ▸ Nat.ne_of_gt (List.length_pos_iff.mpr hbytes)
    have hdone : (i.absorb bytes).missing = 0 := Nat.sub_eq_zero_of_le (Nat.le_of_eq hlen.symm)
    rw [hconducts]
    simp only [resume, Incoming.collect_of_read hmissing hread, if_neg hbytes,
      Incoming.collect_of_done hdone]
    rfl

/-- Calls that are made one after the other. -/
inductive AdvancesAll : Suspended κ → σ → Suspended κ → σ → Prop where
  | none (p : Suspended κ) (s : σ) : AdvancesAll p s p s
  | more {p p' p'' : Suspended κ} {s s' s'' : σ} :
      p.Advances s p' s' → AdvancesAll p' s' p'' s'' → AdvancesAll p s p'' s''

theorem AdvancesAll.snoc {p p' p'' : Suspended κ} {s s' s'' : σ} (h : AdvancesAll p s p' s')
    (hlast : p'.Advances s' p'' s'') : AdvancesAll p s p'' s'' := by
  induction h with
  | none p s => exact .more hlast (.none p'' s'')
  | more hfirst _ ih => exact .more hfirst (ih hlast)

theorem AdvancesAll.resume_eq (hconducts : Conducts course failed) {p p' : Suspended κ} {s s' : σ}
    (h : AdvancesAll p s p' s') : p.resume course failed s = p'.resume course failed s' := by
  induction h with
  | none p s => rfl
  | more hfirst _ ih => exact (hfirst.resume_eq hconducts).trans ih

end Resume

end Suspended

end RemoteRegisters
