import RemoteRegisters.Access.Address
import RemoteRegisters.Access.Call
import RemoteRegisters.Access.Width

/-!
# The register window

A remote device occupies one window of `windowSize` bytes. `Window.place` is the check that every
access passes before anything is sent: the size first, then the position. A placed access has a
width and an offset that fits in 32 bits.
-/

namespace RemoteRegisters

def windowSize : UInt64 := 0x1000

/-- An access that lies in the window. -/
structure Placement where
  offset : UInt32
  width : Width
  deriving DecidableEq, Repr

namespace Window

/-- Checks the size of an access, then that the access ends inside the window. The end of an access
near the top of the 64-bit range does not wrap around, so that such an access is outside as well. -/
def place (offset size : UInt64) : Except AccessError Placement :=
  match Width.ofSize? size with
  | none => .error (.invalidSize size)
  | some width =>
      if windowSize < Address.saturatingAdd offset (UInt64.ofNat width.bytes) then
        .error (.unmapped offset)
      else .ok ⟨offset.toUInt32, width⟩

/-- The window is so small that a sum which stops at the greatest number is outside like the sum
itself. -/
theorem lt_saturatingAdd_iff {offset : UInt64} {width : Width} :
    windowSize < Address.saturatingAdd offset (UInt64.ofNat width.bytes) ↔
      windowSize.toNat < offset.toNat + width.bytes := by
  have hbytes : (UInt64.ofNat width.bytes).toNat = width.bytes := by cases width <;> rfl
  have hwindow : windowSize.toNat < UInt64.size - 1 := by decide
  rw [UInt64.lt_iff_toNat_lt, Address.toNat_saturatingAdd, hbytes]
  omega

/-- An access of a permitted size is placed exactly if it ends inside the window, in unbounded
arithmetic. -/
theorem place_of_width {offset size : UInt64} {width : Width}
    (h : Width.ofSize? size = some width) :
    place offset size =
      if offset.toNat + width.bytes ≤ windowSize.toNat then .ok ⟨offset.toUInt32, width⟩
      else .error (.unmapped offset) := by
  simp only [place, h, lt_saturatingAdd_iff]
  split <;> rename_i hend
  · rw [if_neg (Nat.not_le.mpr hend)]
  · rw [if_pos (Nat.not_lt.mp hend)]

/-- A placed access has a permitted size and ends inside the window. -/
theorem of_place {offset size : UInt64} {a : Placement} (h : place offset size = .ok a) :
    Width.ofSize? size = some a.width ∧ a.offset = offset.toUInt32 ∧
      offset.toNat + a.width.bytes ≤ windowSize.toNat := by
  cases hw : Width.ofSize? size with
  | none =>
    simp only [place, hw] at h
    cases h
  | some width =>
    rw [place_of_width hw] at h
    split at h <;> cases h
    rename_i hend
    exact ⟨rfl, rfl, hend⟩

theorem offset_of_place {offset size : UInt64} {a : Placement} (h : place offset size = .ok a) :
    a.offset.toNat = offset.toNat := by
  obtain ⟨-, hoffset, hend⟩ := of_place h
  have hwindow : windowSize.toNat = 4096 := rfl
  rw [hoffset, UInt64.toNat_toUInt32]
  omega

theorem width_of_place {offset size : UInt64} {a : Placement} (h : place offset size = .ok a) :
    size.toNat = a.width.bytes :=
  Width.ofSize?_eq_some_iff.mp (of_place h).1

end Window

end RemoteRegisters
