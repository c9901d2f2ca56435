import RemoteRegisters.Register.File

/-!
# Values cut to the width of an access

An access of some width carries the low bytes of a value. A register looks at
those bytes only, so it makes no difference whether a value is cut before it
reaches the register or by the register itself. The same holds for a register
file, and a value that was read fits the width it was read with.
-/

namespace RemoteRegisters

namespace Width

/-- Masking a value takes it modulo the range of the width. -/
theorem toNat_and_mask (w : Width) (value : UInt64) :
    (value &&& w.mask).toNat = value.toNat % w.range := by
  rw [UInt64.toNat_and]
  cases w with
  | byte => exact Nat.and_two_pow_sub_one_eq_mod value.toNat 8
  | half => exact Nat.and_two_pow_sub_one_eq_mod value.toNat 16
  | word => exact Nat.and_two_pow_sub_one_eq_mod value.toNat 32

theorem range_pos (w : Width) : 0 < w.range := by
  cases w <;> decide

theorem range_le (w : Width) : w.range ≤ 0x1_0000_0000 := by
  cases w <;> decide

theorem toNat_truncate (w : Width) (value : UInt64) :
    (w.truncate value).toNat = value.toNat % w.range := by
  have hmod : value.toNat % w.range < w.range := Nat.mod_lt _ w.range_pos
  have hfit := w.range_le
  rw [truncate, UInt64.toNat_toUInt32, toNat_and_mask]
  exact Nat.mod_eq_of_lt (by omega)

theorem toNat_truncate_lt (w : Width) (value : UInt64) : (w.truncate value).toNat < w.range := by
  rw [toNat_truncate]
  exact Nat.mod_lt _ w.range_pos

theorem toUInt64_truncate (w : Width) (value : UInt64) :
    (w.truncate value).toUInt64 = value &&& w.mask := by
  apply UInt64.toNat_inj.mp
  rw [UInt32.toNat_toUInt64, toNat_truncate, toNat_and_mask]

theorem truncate_toUInt64_of_lt {w : Width} {value : UInt32} (h : value.toNat < w.range) :
    w.truncate value.toUInt64 = value := by
  apply UInt32.toNat_inj.mp
  rw [toNat_truncate, UInt32.toNat_toUInt64]
  exact Nat.mod_eq_of_lt h

@[simp]
theorem truncate_toUInt64_truncate (w : Width) (value : UInt64) :
    w.truncate (w.truncate value).toUInt64 = w.truncate value :=
  truncate_toUInt64_of_lt (toNat_truncate_lt w value)

end Width

namespace Register

theorem read_and_mask (r : Register) (w : Width) : r.read w &&& w.mask = r.read w := by
  cases r with
  | storage value writable => rw [read, UInt64.and_assoc, UInt64.and_self]
  | constant value => rw [read, UInt64.and_assoc, UInt64.and_self]
  | sink => exact UInt64.zero_and

/-- A write stores the bits of the width only. -/
theorem write_and_mask (r : Register) (w : Width) (value : UInt64) :
    r.write w (value &&& w.mask) = r.write w value := by
  cases r with
  | storage old writable =>
    have hlanes : value &&& w.mask &&& (writable &&& w.mask) = value &&& (writable &&& w.mask) := by
      rw [UInt64.and_comm writable, UInt64.and_assoc, ← UInt64.and_assoc w.mask, UInt64.and_self]
    simp only [write, hlanes]
  | constant kept => rfl
  | sink => rfl

theorem handedOn_and_mask (r : Register) (w : Width) (value : UInt64) :
    r.handedOn w (value &&& w.mask) = r.handedOn w value := by
  cases r with
  | storage old writable => rfl
  | constant kept => rfl
  | sink => rw [handedOn, handedOn, UInt64.and_assoc, UInt64.and_self]

end Register

namespace RegisterFile

/-- A value that was read survives the way through 32 bits. -/
theorem toUInt64_truncate_read (f : RegisterFile) (addr : UInt32) (w : Width) :
    (w.truncate (f.read addr w)).toUInt64 = f.read addr w := by
  rw [Width.toUInt64_truncate, read]
  split
  · exact Register.read_and_mask _ w
  · exact UInt64.zero_and

/-- Writing a value and writing what the width carries of it are the same. -/
theorem write_toUInt64_truncate (f : RegisterFile) (addr : UInt32) (w : Width) (value : UInt64) :
    f.write addr w (w.truncate value).toUInt64 = f.write addr w value := by
  simp only [write, Width.toUInt64_truncate, Register.write_and_mask]

/-- What a write transmits depends only on what the width carries of the value. -/
theorem emitted_toUInt64_truncate (f : RegisterFile) (addr : UInt32) (w : Width)
    (value : UInt64) : f.emitted addr w (w.truncate value).toUInt64 = f.emitted addr w value := by
  simp only [emitted, Width.toUInt64_truncate, Register.handedOn_and_mask]

end RegisterFile

end RemoteRegisters
