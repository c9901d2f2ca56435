import Mathlib.Algebra.Ring.Nat
import RemoteRegisters.Access.Width

/-!
# The bits that an access touches

An access of some width touches the lowest bits of a word, and a merge under a
mask takes each bit from one of two words. What holds of the bits of a number
holds of its bytes.

## Main definitions

- `LittleEndian.byte` — a byte of a number
-/

namespace RemoteRegisters

theorem Width.range_eq_two_pow (w : Width) : w.range = 2 ^ w.bits := by
  cases w <;> rfl

/-- The bits that an access of some width touches are the lowest. -/
theorem Width.testBit_mask (w : Width) (i : Nat) :
    w.mask.toNat.testBit i = decide (i < w.bits) := by
  cases w with
  | byte => exact Nat.testBit_two_pow_sub_one 8 i
  | half => exact Nat.testBit_two_pow_sub_one 16 i
  | word => exact Nat.testBit_two_pow_sub_one 32 i

/-- An access covers whole bytes: a bit of a byte exactly if the byte. -/
theorem Width.lt_bits_iff (w : Width) {i j : Nat} (hj : j < 8) :
    8 * i + j < w.bits ↔ i < w.bytes := by
  rw [bits]
  omega

/-- Merging two words takes each bit from one of them. -/
theorem testBit_merge (old value lanes : UInt64) (i : Nat) :
    ((old &&& ~~~lanes) ||| (value &&& lanes)).toNat.testBit i =
      if lanes.toNat.testBit i then value.toNat.testBit i else old.toNat.testBit i := by
  simp only [← UInt64.toNat_toBitVec, BitVec.testBit_toNat, UInt64.toBitVec_or,
    UInt64.toBitVec_and, UInt64.toBitVec_not, BitVec.getLsbD_or, BitVec.getLsbD_and,
    BitVec.getLsbD_not]
  by_cases hi : i < 64
  · cases lanes.toBitVec.getLsbD i <;> simp [hi]
  · have hnone (v : BitVec 64) : v.getLsbD i = false := BitVec.getLsbD_of_ge v i (Nat.not_lt.mp hi)
    simp [hnone]

namespace LittleEndian

/-- A byte of a number, counted from the least significant. -/
def byte (n i : Nat) : Nat :=
  n / 256 ^ i % 256

theorem testBit_byte (n i j : Nat) :
    (byte n i).testBit j = (decide (j < 8) && n.testBit (8 * i + j)) := by
  have hshift : 256 ^ i = 2 ^ (8 * i) := by rw [Nat.pow_mul]
  change (n / 256 ^ i % 2 ^ 8).testBit j = _
  rw [hshift, Nat.testBit_mod_two_pow, Nat.testBit_div_two_pow, Nat.add_comm]

/-- Two numbers agree in a byte if they agree in its bits. -/
theorem byte_eq_of_testBit {m n i : Nat}
    (h : ∀ j < 8, m.testBit (8 * i + j) = n.testBit (8 * i + j)) : byte m i = byte n i := by
  apply Nat.eq_of_testBit_eq
  intro j
  rw [testBit_byte, testBit_byte]
  by_cases hj : j < 8
  · rw [h j hj]
  · simp [hj]

end LittleEndian

end RemoteRegisters
