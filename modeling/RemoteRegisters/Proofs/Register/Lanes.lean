import RemoteRegisters.Access.Call
import RemoteRegisters.Proofs.Access.Bits
import RemoteRegisters.Proofs.Access.Truncation
import RemoteRegisters.Register.Basic

/-!
# A storage register, bit by bit

A write to a storage register replaces the bits that its width covers and the
mask lets through, and keeps the others. Over many writes of different widths no
single write determines the contents, but for each bit one does: the last that
covered it (`Register.after_storage`, `Register.storage_history`).

## Main definitions

- `Register.Access`, `Register.after` — an access to a register, and a register after several
- `Register.Access.Covers` — an access writes to a bit
- `Register.lastWritten?` — the value of the last write that covered a bit
-/

namespace RemoteRegisters

namespace Register

/-- One access to a register. -/
structure Access where
  width : Width
  operation : Operation
  deriving DecidableEq, Repr

def step (r : Register) (x : Access) : Register :=
  match x.operation with
  | .read => r
  | .write value => r.write x.width value

/-- A register after accesses one behind the other. -/
def after (r : Register) (xs : List Access) : Register :=
  xs.foldl step r

/-- The value that an access writes to a bit, if it covers the bit. -/
def Access.written? (x : Access) (bit : Nat) : Option UInt64 :=
  match x.operation with
  | .read => none
  | .write value => if bit < x.width.bits then some value else none

/-- The value of the last write that covered a bit. -/
def lastWritten? (xs : List Access) (bit : Nat) : Option UInt64 :=
  (xs.filterMap (·.written? bit)).getLast?

theorem lastWritten?_cons (x : Access) (xs : List Access) (bit : Nat) :
    lastWritten? (x :: xs) bit = (lastWritten? xs bit).or (x.written? bit) := by
  simp only [lastWritten?, List.filterMap_cons]
  cases x.written? bit with
  | none => exact Option.or_none.symm
  | some value =>
    rw [List.getLast?_cons]
    cases (xs.filterMap (·.written? bit)).getLast? <;> rfl

theorem lastWritten?_append (xs ys : List Access) (bit : Nat) :
    lastWritten? (xs ++ ys) bit = (lastWritten? ys bit).or (lastWritten? xs bit) := by
  rw [lastWritten?, List.filterMap_append, List.getLast?_append]
  rfl

/-- A bit that the mask lets through holds what an access writes to it; any other bit is kept. -/
theorem step_storage (old writable : UInt64) (x : Access) :
    ∃ value, (storage old writable).step x = storage value writable ∧
      ∀ i, value.toNat.testBit i =
        if writable.toNat.testBit i then ((x.written? i).getD old).toNat.testBit i
        else old.toNat.testBit i := by
  unfold step Access.written?
  cases x.operation with
  | read => exact ⟨old, rfl, fun i => (ite_self _).symm⟩
  | write value =>
    refine ⟨_, rfl, fun i => ?_⟩
    rw [testBit_merge, UInt64.toNat_and, Nat.testBit_and, Width.testBit_mask]
    by_cases hcovered : i < x.width.bits <;> cases writable.toNat.testBit i <;> simp [hcovered]

/-- What a storage register holds after any accesses: in each bit that its mask lets through, that bit
of the value that was last written to it, and in all other bits what it held at first. -/
theorem after_storage (initial writable : UInt64) (xs : List Access) :
    ∃ value, (storage initial writable).after xs = storage value writable ∧
      ∀ i, value.toNat.testBit i =
        if writable.toNat.testBit i then ((lastWritten? xs i).getD initial).toNat.testBit i
        else initial.toNat.testBit i := by
  induction xs generalizing initial with
  | nil => exact ⟨initial, rfl, fun i => (ite_self _).symm⟩
  | cons x xs ih =>
    obtain ⟨next, hstep, hnext⟩ := step_storage initial writable x
    obtain ⟨value, hafter, hvalue⟩ := ih next
    refine ⟨value, by rw [after, List.foldl_cons, hstep]; exact hafter, fun i => ?_⟩
    rw [hvalue, lastWritten?_cons]
    split
    · rename_i hwritable
      cases lastWritten? xs i with
      | none =>
        -- no later write covered the bit, so it is as the first access left it
        rw [Option.getD_none, Option.none_or, hnext, if_pos hwritable]
      | some _ => rfl
    · rename_i hprotected
      rw [hnext, if_neg hprotected]

theorem after_of_step_eq {r : Register} (h : ∀ x, r.step x = r) (xs : List Access) :
    r.after xs = r := by
  induction xs with
  | nil => rfl
  | cons x xs ih =>
    rw [after, List.foldl_cons, h]
    exact ih

/-- No access changes what a constant register holds. -/
theorem after_constant (value : UInt64) (xs : List Access) :
    (constant value).after xs = constant value := by
  refine after_of_step_eq (fun x => ?_) xs
  unfold step
  cases x.operation <;> rfl

theorem after_sink (xs : List Access) : sink.after xs = sink := by
  refine after_of_step_eq (fun x => ?_) xs
  unfold step
  cases x.operation <;> rfl

/-! ### Which write determines a bit -/

/-- An access is a write whose width covers a bit. -/
def Access.Covers (x : Access) (bit : Nat) : Prop :=
  ∃ value, x.operation = .write value ∧ bit < 8 * x.width.bytes

theorem Access.written?_eq_none_iff {x : Access} {bit : Nat} :
    x.written? bit = none ↔ ¬x.Covers bit := by
  unfold written? Covers
  cases x.operation with
  | read => simp
  | write value => by_cases hcovered : bit < 8 * x.width.bytes <;> simp [Width.bits, hcovered]

theorem lastWritten?_eq_none_iff {xs : List Access} {bit : Nat} :
    lastWritten? xs bit = none ↔ ∀ x ∈ xs, ¬x.Covers bit := by
  rw [lastWritten?, List.getLast?_eq_none_iff, List.filterMap_eq_nil_iff]
  exact forall₂_congr fun x _ => Access.written?_eq_none_iff

/-- The last write that covered a bit is the one behind which no other write covers it. -/
theorem lastWritten?_of_last {pre post : List Access} {w : Width} {value : UInt64} {bit : Nat}
    (hcovered : bit < 8 * w.bytes) (hlast : ∀ x ∈ post, ¬x.Covers bit) :
    lastWritten? (pre ++ ⟨w, .write value⟩ :: post) bit = some value := by
  have hwritten : Access.written? ⟨w, .write value⟩ bit = some value := if_pos hcovered
  rw [lastWritten?_append, lastWritten?_cons, lastWritten?_eq_none_iff.mpr hlast, hwritten]
  rfl

/-- Reads leave nothing behind. -/
theorem after_filter_writes (r : Register) (xs : List Access) :
    r.after (xs.filter fun x => x.operation ≠ .read) = r.after xs := by
  rw [after, List.foldl_filter]
  refine congrArg (fun f => xs.foldl f r) ?_
  funext r x
  unfold step
  cases x.operation <;> rfl

/-- A storage register after any accesses. A bit that the mask lets through is that of the last write
wide enough to cover it. A bit that the mask protects, or that no write covered, is that of the initial
value; so are all bits from bit 32 on. A read returns as many of the lowest bits as its width has, and
the register holds the same as if there had been no reads. -/
theorem storage_history (initial writable : UInt64) (xs : List Access) :
    ∃ value, (storage initial writable).after xs = storage value writable ∧
      (∀ i pre w written post, xs = pre ++ ⟨w, .write written⟩ :: post → i < 8 * w.bytes →
        (∀ x ∈ post, ¬x.Covers i) → writable.toNat.testBit i = true →
        value.toNat.testBit i = written.toNat.testBit i) ∧
      (∀ i, writable.toNat.testBit i = false ∨ (∀ x ∈ xs, ¬x.Covers i) →
        value.toNat.testBit i = initial.toNat.testBit i) ∧
      (∀ i, 32 ≤ i → value.toNat.testBit i = initial.toNat.testBit i) ∧
      (∀ w, (((storage initial writable).after xs).read w).toNat =
        value.toNat % 2 ^ (8 * w.bytes)) ∧
      (storage initial writable).after (xs.filter fun x => x.operation ≠ .read) =
        (storage initial writable).after xs := by
  obtain ⟨value, hafter, hvalue⟩ := after_storage initial writable xs
  have hkept (i : Nat) (h : writable.toNat.testBit i = false ∨ ∀ x ∈ xs, ¬x.Covers i) :
      value.toNat.testBit i = initial.toNat.testBit i := by
    rw [hvalue]
    obtain hprotected | hnone := h
    · rw [if_neg (by rw [hprotected]; exact Bool.false_ne_true)]
    · rw [lastWritten?_eq_none_iff.mpr hnone, Option.getD_none, ite_self]
  refine ⟨value, hafter, ?_, hkept, fun i hi => ?_, fun w => ?_, after_filter_writes _ xs⟩
  · rintro i pre w written post rfl hcovered hlast hwritable
    rw [hvalue, if_pos hwritable, lastWritten?_of_last hcovered hlast, Option.getD_some]
  · refine hkept i (.inr ?_)
    rintro x - ⟨_, -, hcovered⟩
    have := x.width.bytes_le_four
    omega
  · rw [hafter, read, w.toNat_and_mask, w.range_eq_two_pow, Width.bits]

/-- A word, and behind it a byte that the mask lets through by half. The low four bits are those of the
byte, the next four those of the initial value, and the next eight those of the word. -/
theorem storage_history_half_byte :
    ∃ value, (storage 0xFFFF_0000_0000_00A0 0xFFFF_FFFF_FFFF_FF0F).after
        [⟨.word, .write 0x1122_3344⟩, ⟨.half, .read⟩, ⟨.byte, .write 0x5566⟩] =
          storage value 0xFFFF_FFFF_FFFF_FF0F ∧
      value.toNat.testBit 1 = true ∧ value.toNat.testBit 7 = true ∧ value.toNat.testBit 8 = true ∧
      value.toNat.testBit 48 = true := by
  obtain ⟨value, hafter, hlast, hkept, hupper, -⟩ :=
    storage_history 0xFFFF_0000_0000_00A0 0xFFFF_FFFF_FFFF_FF0F
      [⟨.word, .write 0x1122_3344⟩, ⟨.half, .read⟩, ⟨.byte, .write 0x5566⟩]
  refine ⟨value, hafter, ?_, ?_, ?_, ?_⟩
  · rw [hlast 1 [⟨.word, .write 0x1122_3344⟩, ⟨.half, .read⟩] .byte 0x5566 [] rfl (by decide)
      (by simp) (by decide)]
    decide
  · rw [hkept 7 (.inl (by decide))]
    decide
  · rw [hlast 8 [] .word 0x1122_3344 [⟨.half, .read⟩, ⟨.byte, .write 0x5566⟩] rfl (by decide)
      (by simp [Access.Covers, Width.bytes]) (by decide)]
    decide
  · rw [hupper 48 (by decide)]
    decide

end Register

end RemoteRegisters
