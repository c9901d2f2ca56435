import RemoteRegisters.Proofs.Access.Truncation
import RemoteRegisters.Proofs.Session.Service

/-!
# What requests transmit

Which registers transmit is laid down in the map and no write changes it
(`RegisterFile.SinksOf.write`). So the bytes that requests transmit can be told
from the map and the requests alone: they are the low bytes of the values that
are written to the transmitting registers, in order, whatever the width of the
write and whatever the other registers hold.

## Main definitions

- `RegisterMap.Transmits` — the map has a transmitting register at an offset
- `RegisterMap.transmission` — the bytes that requests transmit, told from the map
-/

namespace RemoteRegisters

namespace RegisterMap

/-- There is a register at the offset, and it transmits what is written to it. -/
def Transmits (m : RegisterMap) (addr : UInt32) : Prop :=
  ∃ d, m.lookup? addr = some d ∧ d.semantics = .transmit

instance (m : RegisterMap) (addr : UInt32) : Decidable (m.Transmits addr) :=
  match h : m.lookup? addr with
  | none => isFalse fun ⟨_, hd, _⟩ => nomatch h.symm.trans hd
  | some d =>
      if hd : d.semantics = .transmit then isTrue ⟨d, h, hd⟩
      else isFalse fun ⟨d', hd', hsem⟩ => by
        cases h.symm.trans hd'
        exact hd hsem

/-- The low bytes of what requests write to transmitting registers. -/
def transmission (m : RegisterMap) (rs : List Request) : List UInt8 :=
  rs.flatMap fun
    | .read .. => []
    | .write addr _ value => if m.Transmits addr then [value.toUInt8] else []

end RegisterMap

/-- A mask keeps the low byte. -/
theorem Width.toUInt8_and_mask (w : Width) (value : UInt64) :
    (value &&& w.mask).toUInt8 = value.toUInt8 := by
  apply UInt8.toNat_inj.mp
  rw [UInt64.toNat_toUInt8, UInt64.toNat_toUInt8, toNat_and_mask]
  cases w <;> simp only [range] <;> omega

namespace RegisterFile

theorem register?_write (f : RegisterFile) (addr : UInt32) (w : Width) (value : UInt64)
    (addr' : UInt32) :
    (f.write addr w value).register? addr' =
      if addr' = addr then (f.register? addr').map (·.write w value) else f.register? addr' := by
  have hkeep (s : Slot) :
      (if s.offset = addr then { s with register := s.register.write w value } else s).offset =
        s.offset := by
    split <;> rfl
  simp only [register?, write, List.find?_map, Function.comp_def, hkeep]
  cases hfind : f.slots.find? (·.offset == addr') with
  | none => simp
  | some s =>
    have hoffset : s.offset = addr' := by simpa using List.find?_some hfind
    simp only [Option.map_some, hoffset]
    split <;> rfl

theorem register?_ofMap (m : RegisterMap) (addr : UInt32) :
    (ofMap m).register? addr = (m.lookup? addr).map fun d => d.semantics.register d.reset := by
  simp [register?, ofMap, RegisterMap.lookup?, List.find?_map, Function.comp_def]

/-- The sinks of a register file are the transmitting registers of a map. -/
def SinksOf (f : RegisterFile) (m : RegisterMap) : Prop :=
  ∀ addr, f.register? addr = some .sink ↔ m.Transmits addr

theorem sinksOf_ofMap (m : RegisterMap) : (ofMap m).SinksOf m := by
  intro addr
  rw [register?_ofMap, RegisterMap.Transmits]
  cases m.lookup? addr with
  | none => simp
  | some d => cases hsem : d.semantics <;> simp [Semantics.register, hsem]

variable {f : RegisterFile} {m : RegisterMap}

/-- A write changes what a register holds, and not what kind of register it is. -/
theorem SinksOf.write (h : f.SinksOf m) (addr : UInt32) (w : Width) (value : UInt64) :
    (f.write addr w value).SinksOf m := by
  intro addr'
  rw [register?_write, ← h addr']
  split
  · cases f.register? addr' with
    | none => simp
    | some r => cases r <;> simp [Register.write]
  · exact Iff.rfl

theorem SinksOf.apply (h : f.SinksOf m) (r : Request) : (f.apply r).SinksOf m := by
  cases r with
  | read addr w => exact h
  | write addr w value => exact h.write addr w value.toUInt64

/-- A write transmits its low byte if it goes to a sink, whatever its width, and else nothing. -/
theorem SinksOf.emitted (h : f.SinksOf m) (addr : UInt32) (w : Width) (value : UInt64) :
    f.emitted addr w value = if m.Transmits addr then [value.toUInt8] else [] := by
  unfold RegisterFile.emitted
  by_cases htransmits : m.Transmits addr
  · rw [if_pos htransmits, (h addr).mpr htransmits]
    simp only [Option.bind_some, Register.handedOn, Width.toUInt8_and_mask]
  · rw [if_neg htransmits]
    have hnot : f.register? addr ≠ some .sink := fun hsink => htransmits ((h addr).mp hsink)
    cases hreg : f.register? addr with
    | none => rfl
    | some r =>
      cases r with
      | storage old writable => rfl
      | constant kept => rfl
      | sink => exact absurd hreg hnot

theorem SinksOf.transmittedBy (h : f.SinksOf m) (r : Request) :
    f.transmittedBy r = m.transmission [r] := by
  cases r with
  | read addr w => rfl
  | write addr w value =>
    rw [RegisterFile.transmittedBy, h.emitted]
    exact (List.append_nil _).symm

theorem SinksOf.transmitted (h : f.SinksOf m) (rs : List Request) :
    f.transmitted rs = m.transmission rs := by
  induction rs generalizing f with
  | nil => rfl
  | cons r rs ih =>
    rw [RegisterFile.transmitted, h.transmittedBy, ih (h.apply r)]
    exact List.flatMap_append.symm

/-- On registers in their reset state, requests transmit the low bytes of what they write to the
transmitting registers of the map. -/
theorem transmitted_ofMap (m : RegisterMap) (rs : List Request) :
    (ofMap m).transmitted rs = m.transmission rs :=
  (sinksOf_ofMap m).transmitted rs

end RegisterFile

end RemoteRegisters
