/-!
# Little-endian byte strings

Numbers travel with their least significant byte first. `toBytes` writes the low bytes of a number
and `ofBytes` reads a number back; reading what was written gives the number modulo the range of the
bytes, and every byte string is what its own number is written as.
-/

namespace RemoteRegisters.LittleEndian

/-- The low `count` bytes of a number, least significant first. -/
def toBytes : (count n : Nat) → List UInt8
  | 0, _ => []
  | count + 1, n => UInt8.ofNat n :: toBytes count (n / 256)

def ofBytes : List UInt8 → Nat
  | [] => 0
  | b :: bs => b.toNat + 256 * ofBytes bs

def range : (count : Nat) → Nat
  | 0 => 1
  | count + 1 => 256 * range count

@[simp]
theorem length_toBytes (count n : Nat) : (toBytes count n).length = count := by
  induction count generalizing n with
  | zero => rfl
  | succ count ih => simp [toBytes, ih]

/-- Reading the low bytes of a number gives the number modulo what those bytes can hold. -/
theorem ofBytes_toBytes (count n : Nat) : ofBytes (toBytes count n) = n % range count := by
  induction count generalizing n with
  | zero => simp [toBytes, ofBytes, range, Nat.mod_one]
  | succ count ih =>
    have low : (UInt8.ofNat n).toNat = n % 256 := by simp
    rw [toBytes, ofBytes, ih, low, range, Nat.mod_mul]

theorem toBytes_ofBytes (bs : List UInt8) : toBytes bs.length (ofBytes bs) = bs := by
  induction bs with
  | nil => rfl
  | cons b bs ih =>
    have hb := b.toNat_lt
    have low : UInt8.ofNat (ofBytes (b :: bs)) = b := by
      apply UInt8.toNat_inj.mp
      simp only [ofBytes, UInt8.toNat_ofNat']
      omega
    have high : ofBytes (b :: bs) / 256 = ofBytes bs := by
      simp only [ofBytes]
      omega
    rw [List.length_cons, toBytes, low, high, ih]

theorem ofBytes_lt (bs : List UInt8) : ofBytes bs < range bs.length := by
  induction bs with
  | nil => decide
  | cons b bs ih =>
    have hb := b.toNat_lt
    simp only [ofBytes, List.length_cons, range]
    omega

end RemoteRegisters.LittleEndian
