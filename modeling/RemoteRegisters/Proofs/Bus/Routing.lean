import RemoteRegisters.Device.Probe
import RemoteRegisters.Proofs.Bridge.Exchange
import RemoteRegisters.Proofs.Bus.Layout

/-!
# Which device an access reaches

An access looks at one region only, the nearest one that starts no later. Since
the regions lie apart, that is the region that covers the access if there is one
at all (`Bus.Laid.locate_of_routes`). Every other access is refused before it
reaches a device (`Bus.Laid.locate_of_not_routes`).

The end of an access within its region is computed in 64 bits. It wraps around
for one access only, to the last word of the address space in a region that
starts at zero (`Bus.WrapsAround`).

## Main definitions

- `Bus.Routes` — an access goes to a region
- `Call.refusal` — why an access that goes nowhere is refused
-/

namespace RemoteRegisters

/-- The reason for which an access that goes to no region is refused: its size, else its alignment,
else its address. -/
def Call.refusal (c : Call) : AccessError :=
  if ¬(c.size = 1 ∨ c.size = 2 ∨ c.size = 4) then .invalidSize c.size
  else if ¬c.size.toNat ∣ c.address.toNat then .misaligned c.address c.size
  else .unmapped c.address

/-- The mask below a size that has a width leaves nothing of an address exactly if the address is a
multiple of the size. -/
theorem Width.and_size_sub_one_eq_zero_iff {w : Width} {address size : UInt64}
    (hw : ofSize? size = some w) : address &&& (size - 1) = 0 ↔ size.toNat ∣ address.toNat := by
  have hsize := ofSize?_eq_some_iff.mp hw
  obtain ⟨k, hk⟩ : ∃ k, w.bytes = 2 ^ k := by
    cases w
    · exact ⟨0, rfl⟩
    · exact ⟨1, rfl⟩
    · exact ⟨2, rfl⟩
  have hone : (1 : UInt64) ≤ size := by
    rw [UInt64.le_iff_toNat_le, hsize]
    exact w.bytes_pos
  have hmask : (size - 1).toNat = 2 ^ k - 1 := by
    rw [UInt64.toNat_sub_of_le _ _ hone, hsize, hk]
    rfl
  rw [← UInt64.toNat_inj, UInt64.toNat_and, hmask, Nat.and_two_pow_sub_one_eq_mod, hsize, hk,
    Nat.dvd_iff_mod_eq_zero]
  rfl

/-- An aligned access ends inside the address space or with it. -/
theorem Width.add_bytes_le {w : Width} {address : Nat} (haligned : w.bytes ∣ address)
    (hlt : address < UInt64.size) : address + w.bytes ≤ UInt64.size := by
  cases w <;> simp only [bytes, UInt64.size] at * <;> omega

namespace Bus

variable {δ : Type} {bus : Bus δ} {c : Call} {r : Region δ}

/-- An access has the size of a width and is aligned to it, and all its bytes lie in a region. -/
structure Routes (bus : Bus δ) (c : Call) (r : Region δ) : Prop where
  size : c.size = 1 ∨ c.size = 2 ∨ c.size = 4
  aligned : c.size.toNat ∣ c.address.toNat
  mem : r ∈ bus.regions
  starts : r.base.toNat ≤ c.address.toNat
  ends : c.address.toNat + c.size.toNat ≤ r.base.toNat + r.size.toNat

/-- An access ends where the address space does, in a region that starts at zero. -/
def WrapsAround (bus : Bus δ) (c : Call) : Prop :=
  c.address.toNat + c.size.toNat = UInt64.size ∧
    ∃ r ∈ bus.regions, r.base = 0 ∧ c.address.toNat < r.base.toNat + r.size.toNat

theorem Routes.exists_width (h : bus.Routes c r) :
    ∃ w, Width.ofSize? c.size = some w ∧ c.size.toNat = w.bytes := by
  obtain ⟨w, hw⟩ := Call.size_cases_iff.mp h.size
  exact ⟨w, hw, Width.ofSize?_eq_some_iff.mp hw⟩

theorem Routes.holds (h : bus.Routes c r) : r.Holds c.address.toNat := by
  obtain ⟨w, -, hsize⟩ := h.exists_width
  have hpos := w.bytes_pos
  have hends := h.ends
  refine ⟨h.starts, ?_⟩
  unfold Region.limit
  omega

theorem Routes.offset_eq (h : bus.Routes c r) :
    (c.address - r.base).toNat = c.address.toNat - r.base.toNat :=
  UInt64.toNat_sub_of_le _ _ (UInt64.le_iff_toNat_le.mpr h.starts)

/-- The region at the address is found, if the access passes the check of its alignment before and that
of its end after. -/
theorem locate_eq_ok_iff {address size : UInt64} {width : Width} :
    bus.locate address size = .ok (r, width) ↔
      Width.ofSize? size = some width ∧ size.toNat ∣ address.toNat ∧
        bus.regionAt? address = some r ∧ ¬r.size < (address - r.base) + size := by
  unfold locate
  constructor
  · intro h
    split at h
    · cases h
    · rename_i w hw
      split at h
      · cases h
      · rename_i hmask
        split at h
        · cases h
        · rename_i hfound
          split at h
          · cases h
          · rename_i hbound
            cases h
            have haligned := Decidable.not_not.mp hmask
            exact ⟨hw, (Width.and_size_sub_one_eq_zero_iff hw).mp haligned, hfound, hbound⟩
  · rintro ⟨hw, haligned, hfound, hbound⟩
    have hmask := (Width.and_size_sub_one_eq_zero_iff hw).mpr haligned
    simp only [hw, hmask, hfound, ne_eq, not_true_eq_false, if_false, if_neg hbound]

/-- An access that the bus refuses is refused for its size, else its alignment, else its address. -/
theorem eq_refusal_of_locate {c : Call} {e : AccessError}
    (h : bus.locate c.address c.size = .error e) : e = c.refusal := by
  unfold locate at h
  unfold Call.refusal
  split at h
  · rename_i hsize
    cases h
    rw [if_pos]
    rw [Call.size_cases_iff]
    rintro ⟨w, hw⟩
    cases hsize.symm.trans hw
  · rename_i w hw
    have haligned : c.address &&& (c.size - 1) = 0 ↔ c.size.toNat ∣ c.address.toNat :=
      Width.and_size_sub_one_eq_zero_iff hw
    rw [if_neg (not_not_intro (Call.size_cases_iff.mpr ⟨w, hw⟩))]
    split at h
    · rename_i hmask
      cases h
      exact (if_pos fun hdvd => hmask (haligned.mpr hdvd)).symm
    · rename_i hmask
      rw [if_neg (not_not_intro (haligned.mp (Decidable.not_not.mp hmask)))]
      split at h
      · cases h
        rfl
      · split at h
        · cases h
          rfl
        · cases h

namespace Laid

theorem mem_of_locate (h : bus.Laid) {address size : UInt64} {w : Width}
    (hlocate : bus.locate address size = .ok (r, w)) : r ∈ bus.regions := by
  obtain ⟨-, -, hfound, -⟩ := locate_eq_ok_iff.mp hlocate
  exact (h.regionAt?_eq_some_iff.mp hfound).1

theorem holds_of_locate (h : bus.Laid) {address size : UInt64} {w : Width}
    (hlocate : bus.locate address size = .ok (r, w)) : r.Holds address.toNat := by
  obtain ⟨-, -, hfound, -⟩ := locate_eq_ok_iff.mp hlocate
  exact (h.regionAt?_eq_some_iff.mp hfound).2

theorem eq_of_routes (h : bus.Laid) {s : Region δ} (hr : bus.Routes c r) (hs : bus.Routes c s) :
    s = r :=
  h.eq_of_holds hs.mem hr.mem hs.holds hr.holds

theorem locate_of_routes (h : bus.Laid) (hr : bus.Routes c r) :
    ∃ w, w.bytes = c.size.toNat ∧ bus.locate c.address c.size = .ok (r, w) := by
  obtain ⟨w, hw, hsize⟩ := hr.exists_width
  have hstarts := hr.starts
  have hends := hr.ends
  have hlimit := h.fits r hr.mem
  unfold Region.limit at hlimit
  have hfound := h.regionAt?_eq_some_iff.mpr ⟨hr.mem, hr.holds⟩
  refine ⟨w, hsize.symm, locate_eq_ok_iff.mpr ⟨hw, hr.aligned, hfound, ?_⟩⟩
  rw [UInt64.lt_iff_toNat_lt, UInt64.toNat_add, hr.offset_eq]
  omega

/-- An access that no region covers is refused, unless its end wraps around. -/
theorem locate_of_not_routes (h : bus.Laid) (hnone : ∀ r, ¬bus.Routes c r)
    (hwraps : ¬bus.WrapsAround c) : bus.locate c.address c.size = .error c.refusal := by
  cases hlocate : bus.locate c.address c.size with
  | error e => rw [eq_refusal_of_locate hlocate]
  | ok found =>
    -- the bounds check was passed, so the access is covered or its end wrapped around
    obtain ⟨r, w⟩ := found
    obtain ⟨hw, haligned, hfound, hbound⟩ := locate_eq_ok_iff.mp hlocate
    obtain ⟨hmem, hstarts, hinside⟩ := h.regionAt?_eq_some_iff.mp hfound
    have hsize := Width.ofSize?_eq_some_iff.mp hw
    have hlimit := h.fits r hmem
    have htop := Width.add_bytes_le (hsize ▸ haligned) c.address.toNat_lt
    have hle : r.base ≤ c.address := UInt64.le_iff_toNat_le.mpr hstarts
    rw [UInt64.lt_iff_toNat_lt, UInt64.toNat_add, UInt64.toNat_sub_of_le _ _ hle] at hbound
    unfold Region.limit at hlimit hinside
    unfold Region.key at hstarts
    by_cases hwrap : c.address.toNat - r.base.toNat + c.size.toNat < UInt64.size
    · rw [Nat.mod_eq_of_lt hwrap] at hbound
      exact absurd ⟨Call.size_cases_iff.mpr ⟨w, hw⟩, haligned, hmem, hstarts, by omega⟩ (hnone r)
    · have hzero : r.base.toNat = 0 := by omega
      exact absurd ⟨by omega, r, hmem, UInt64.toNat_inj.mp hzero, by omega⟩ hwraps

/-- A new state of one device leaves all other regions as they are. -/
theorem setDevice_regions (h : bus.Laid) (hr : r ∈ bus.regions) (device : δ) :
    ∃ before after, bus.regions = before ++ r :: after ∧
      (bus.setDevice r.base device).regions = before ++ { r with device := device } :: after := by
  obtain ⟨before, after, hsplit⟩ := List.append_of_mem hr
  have hascending := h.ascending
  rw [hsplit, Keyed.Ascending, List.pairwise_append, List.pairwise_cons] at hascending
  obtain ⟨-, ⟨hafter, -⟩, hbefore⟩ := hascending
  refine ⟨before, after, hsplit, ?_⟩
  have hsame (rs : List (Region δ)) (hrs : ∀ s ∈ rs, s.key ≠ r.key) :
      rs.map (fun s => if s.base = r.base then { s with device := device } else s) = rs := by
    rw [List.map_congr_left (g := id), List.map_id]
    intro s hs
    exact if_neg fun hbase => hrs s hs (congrArg UInt64.toNat hbase)
  rw [Bus.setDevice, hsplit, List.map_append, List.map_cons, if_pos rfl,
    hsame before fun s hs => Nat.ne_of_lt (hbefore s hs r List.mem_cons_self),
    hsame after fun s hs => Nat.ne_of_gt (hafter s hs)]

end Laid

variable [Device δ]

/-- Routing on a bus that came about from the empty one. Its regions lie apart. An access of 1, 2 or 4
bytes, at a multiple of its size, whose bytes all lie in one region goes to the device there, and to no
other. The device sees one access, at the offset within its region and with the operation as it was
made; the answer is its answer, and no other device changes. Every other access changes nothing and
is refused for its size, else for its alignment, else for its address. -/
theorem Reachable.routing (h : bus.Reachable) :
    bus.Laid ∧
      ∀ c : Call,
        (∀ r, bus.Routes c r →
          (∀ s, bus.Routes c s → s = r) ∧
          ∃ before after width,
            bus.regions = before ++ r :: after ∧
            width.bytes = c.size.toNat ∧
            (c.address - r.base).toNat = c.address.toNat - r.base.toNat ∧
            let seen := Device.access r.device (c.address - r.base) width c.operation
            (bus.perform c).answer = seen.answer ∧
              (bus.perform c).state.regions = before ++ { r with device := seen.state } :: after) ∧
        ((∀ r, ¬bus.Routes c r) → ¬bus.WrapsAround c →
          (bus.perform c).state = bus ∧ (bus.perform c).answer = .error c.refusal) := by
  have hlaid := h.laid
  refine ⟨hlaid, fun c => ⟨fun r hr => ?_, fun hnone hwraps => ?_⟩⟩
  · refine ⟨fun s hs => hlaid.eq_of_routes hr hs, ?_⟩
    obtain ⟨width, hwidth, hlocate⟩ := hlaid.locate_of_routes hr
    obtain ⟨before, after, hsplit, hregions⟩ := hlaid.setDevice_regions hr.mem
      (Device.access r.device (c.address - r.base) width c.operation).state
    refine ⟨before, after, width, hsplit, hwidth, hr.offset_eq, ?_⟩
    rw [perform_of_located hlocate]
    exact ⟨rfl, hregions⟩
  · rw [perform_of_refused (hlaid.locate_of_not_routes hnone hwraps)]
    exact ⟨rfl, rfl⟩

/-- A probe, an empty region behind it and a second probe. The last word of the first probe is read;
the word behind it is in no region. -/
theorem routing_between_probes :
    let probe (size : UInt64) : Probe := { size := size, pattern := 0x30, refusal := none }
    let bus := (((empty.attach 0x1000 (probe 0x10)).state.attach 0x1010 (probe 0)).state.attach
      0x1020 (probe 8)).state
    bus.Routes (.read 0x100C 4) ⟨0x1000, 0x10, probe 0x10⟩ ∧
      (bus.perform (.read 0x100C 4)).answer = .ok (some 0x3C) ∧
      (bus.perform (.read 0x1010 4)).answer = .error (.unmapped 0x1010) := by
  intro probe bus
  have hreachable : bus.Reachable := ((Reachable.empty.attach _ _).attach _ _).attach _ _
  have hregions : bus.regions =
      [⟨0x1000, 0x10, probe 0x10⟩, ⟨0x1010, 0, probe 0⟩, ⟨0x1020, 8, probe 8⟩] := rfl
  have hroutes : bus.Routes (.read 0x100C 4) ⟨0x1000, 0x10, probe 0x10⟩ :=
    ⟨by decide, by decide, by simp [hregions], by decide, by decide⟩
  have hnone (r : Region Probe) : ¬bus.Routes (.read 0x1010 4) r := by
    rintro ⟨-, -, hmem, hstarts, hends⟩
    rw [hregions] at hmem
    simp only [List.mem_cons, List.not_mem_nil, or_false] at hmem
    obtain rfl | rfl | rfl := hmem
    · exact absurd hends (by decide)
    · exact absurd hends (by decide)
    · exact absurd hstarts (by decide)
  have hwraps : ¬bus.WrapsAround (.read 0x1010 4) := fun h => absurd h.1 (by decide)
  obtain ⟨-, hcalls⟩ := hreachable.routing
  obtain ⟨-, before, after, width, -, hwidth, -, hanswer, -⟩ :=
    (hcalls (.read 0x100C 4)).1 _ hroutes
  refine ⟨hroutes, ?_, ((hcalls (.read 0x1010 4)).2 hnone hwraps).2⟩
  cases width with
  | byte => exact absurd hwidth (by decide)
  | half => exact absurd hwidth (by decide)
  | word => exact hanswer.trans (by cbv)

end Bus

end RemoteRegisters
