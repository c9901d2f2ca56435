/-!
# The width of a register access

A register is accessed one, two or four bytes at a time. `Width` is that choice. It fixes the low
bits of a 64-bit value that take part in the access (`Width.mask`, `Width.truncate`) and the one
byte that stands for it in a frame (`Width.tag`).

## Main definitions

* `Width.ofSize?` and `Width.ofByte?` accept exactly 1, 2 and 4.
* `Width.truncate` keeps the bytes of a value that an access of this width carries.
-/

namespace RemoteRegisters

/-- How many bytes of a register one access touches. -/
inductive Width where
  | byte
  | half
  | word
  deriving DecidableEq, Repr

namespace Width

def bytes : Width → Nat
  | byte => 1
  | half => 2
  | word => 4

def bits (w : Width) : Nat :=
  8 * w.bytes

def range : Width → Nat
  | byte => 0x100
  | half => 0x1_0000
  | word => 0x1_0000_0000

/-- Ones in the bits that the access touches, zeros above them. -/
def mask : Width → UInt64
  | byte => 0xFF
  | half => 0xFFFF
  | word => 0xFFFF_FFFF

/-- The part of a value that an access of this width carries. -/
def truncate (w : Width) (value : UInt64) : UInt32 :=
  (value &&& w.mask).toUInt32

/-- The byte that stands for the width in a frame: the number of bytes itself. -/
def tag : Width → UInt8
  | byte => 1
  | half => 2
  | word => 4

def ofByte? (b : UInt8) : Option Width :=
  match b.toNat with
  | 1 => some byte
  | 2 => some half
  | 4 => some word
  | _ => none

/-- The width of an access of `size` bytes, if there is one. A size that is no byte is none. -/
def ofSize? (size : UInt64) : Option Width :=
  if size ≤ 0xFF then ofByte? size.toUInt8 else none

theorem bytes_pos (w : Width) : 0 < w.bytes := by
  cases w <;> decide

theorem bytes_le_four (w : Width) : w.bytes ≤ 4 := by
  cases w <;> decide

@[simp]
theorem ofByte?_tag (w : Width) : ofByte? w.tag = some w := by
  cases w <;> rfl

theorem toNat_tag (w : Width) : w.tag.toNat = w.bytes := by
  cases w <;> rfl

/-- A byte is read as a width exactly if it is the byte that stands for it. -/
theorem ofByte?_eq_some_iff {b : UInt8} {w : Width} : ofByte? b = some w ↔ b = w.tag := by
  rw [← UInt8.toNat_inj, toNat_tag]
  unfold ofByte?
  split <;> cases w <;> simp_all [bytes]

/-- A size is a width exactly if it is that width's number of bytes. -/
theorem ofSize?_eq_some_iff {size : UInt64} {w : Width} :
    ofSize? size = some w ↔ size.toNat = w.bytes := by
  have hbytes := w.bytes_le_four
  have hbyte : size ≤ 0xFF ↔ size.toNat ≤ 255 := UInt64.le_iff_toNat_le
  unfold ofSize?
  split
  · rename_i hfits
    rw [ofByte?_eq_some_iff, ← UInt8.toNat_inj, toNat_tag, UInt64.toNat_toUInt8,
      Nat.mod_eq_of_lt (Nat.lt_succ_of_le (hbyte.mp hfits))]
  · rename_i hlarge
    rw [hbyte] at hlarge
    simp only [reduceCtorEq, false_iff]
    omega

end Width

end RemoteRegisters
