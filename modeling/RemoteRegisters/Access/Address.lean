/-!
# Sums of addresses

Addresses, offsets and sizes are 64-bit numbers, and the sum of two of them need not be one. Two
additions notice this. One then gives no sum, and the other stops at the greatest number there is.
-/

namespace RemoteRegisters.Address

/-- The sum of two numbers, unless it wraps around. -/
def checkedAdd? (a b : UInt64) : Option UInt64 :=
  if a + b < a then none else some (a + b)

/-- The sum of two numbers, or the greatest number if the sum wraps around. -/
def saturatingAdd (a b : UInt64) : UInt64 :=
  (checkedAdd? a b).getD 0xFFFF_FFFF_FFFF_FFFF

variable {a b c : UInt64}

/-- A sum that wraps around is less than what was added to. -/
theorem add_lt_iff : a + b < a ↔ UInt64.size ≤ a.toNat + b.toNat := by
  have ha := a.toNat_lt
  have hb := b.toNat_lt
  rw [UInt64.lt_iff_toNat_lt, UInt64.toNat_add]
  simp only [UInt64.size]
  omega

theorem checkedAdd?_eq_none_iff : checkedAdd? a b = none ↔ UInt64.size ≤ a.toNat + b.toNat := by
  rw [← add_lt_iff, checkedAdd?]
  split <;> simp_all

theorem checkedAdd?_eq_some_iff :
    checkedAdd? a b = some c ↔ a.toNat + b.toNat < UInt64.size ∧ c = a + b := by
  rw [← Nat.not_le, ← add_lt_iff, checkedAdd?]
  split <;> simp_all [eq_comm]

/-- A sum that does not wrap around is the unbounded one. -/
theorem toNat_add_of_lt (h : a.toNat + b.toNat < UInt64.size) :
    (a + b).toNat = a.toNat + b.toNat := by
  rw [UInt64.toNat_add]
  exact Nat.mod_eq_of_lt h

theorem toNat_saturatingAdd (a b : UInt64) :
    (saturatingAdd a b).toNat = min (a.toNat + b.toNat) (UInt64.size - 1) := by
  unfold saturatingAdd
  cases hsum : checkedAdd? a b with
  | none =>
    have hwraps := checkedAdd?_eq_none_iff.mp hsum
    exact (Nat.min_eq_right (Nat.le_trans (Nat.sub_le _ 1) hwraps)).symm
  | some c =>
    obtain ⟨hfits, rfl⟩ := checkedAdd?_eq_some_iff.mp hsum
    rw [Option.getD_some, toNat_add_of_lt hfits]
    exact (Nat.min_eq_left (Nat.le_sub_one_of_lt hfits)).symm

end RemoteRegisters.Address
