import RemoteRegisters.Proofs.Bus.Routing

/-!
# What the attachment of a device leaves alone

A refused attachment changes nothing. One that is accepted adds a region at its
place, and every access that went to a region before goes there still
(`Bus.Reachable.attach_frame`).

There is one exception. An empty region has nothing that could overlap, so one may
start where another region does; the two share a base, and the new region takes
the place of the old one.
-/

namespace RemoteRegisters

namespace Bus

variable {δ : Type} {bus : Bus δ} {new : Region δ}

/-! ### A region more -/

namespace Laid

/-- A region that nothing is in the way of has a base of its own, unless it is empty. -/
theorem key_ne_of_free (hfree : ∀ r ∈ bus.regions, ¬r.Obstructs new.key new.limit)
    (hnonempty : new.size ≠ 0) : ∀ r ∈ bus.regions, r.key ≠ new.key := by
  intro r hr hkey
  have hsize : new.size.toNat ≠ 0 := fun hzero => hnonempty (UInt64.toNat_inj.mp hzero)
  refine hfree r hr (.inl ⟨Nat.le_of_eq hkey.symm, ?_⟩)
  rw [hkey]
  unfold Region.limit Region.key
  omega

theorem insert_regions (h : bus.Laid) (hbase : ∀ r ∈ bus.regions, r.key ≠ new.key) :
    ∃ before after, bus.regions = before ++ after ∧
      Keyed.insert Region.key new bus.regions = before ++ new :: after :=
  ⟨_, _, h.ascending.eq_filter_append hbase, h.ascending.insert_eq new⟩

/-- An access that goes to a region goes there still when another region is inserted. -/
theorem locate_insert (h : bus.Laid) (hnew : Laid ⟨Keyed.insert Region.key new bus.regions⟩)
    (hbase : ∀ r ∈ bus.regions, r.key ≠ new.key) {address size : UInt64} {r : Region δ}
    {width : Width} (hlocate : bus.locate address size = .ok (r, width)) :
    locate ⟨Keyed.insert Region.key new bus.regions⟩ address size = .ok (r, width) := by
  obtain ⟨hwidth, haligned, hfound, hbound⟩ := locate_eq_ok_iff.mp hlocate
  obtain ⟨hr, hholds⟩ := h.regionAt?_eq_some_iff.mp hfound
  have hr' : r ∈ Keyed.insert Region.key new bus.regions :=
    h.ascending.mem_insert_iff.mpr (.inr ⟨hr, hbase r hr⟩)
  exact locate_eq_ok_iff.mpr
    ⟨hwidth, haligned, hnew.regionAt?_eq_some_iff.mpr ⟨hr', hholds⟩, hbound⟩

end Laid

/-- Nothing is in the way of an empty region at a base that is taken. -/
theorem Laid.not_obstructs_empty (h : bus.Laid) {r : Region δ} (hr : r ∈ bus.regions) :
    ∀ s ∈ bus.regions, ¬s.Obstructs r.key r.key := by
  rintro s hs (⟨hlow, hhigh⟩ | ⟨hlow, hhigh⟩)
  · omega
  · have := h.apart s hs r hr hlow
    omega

/-! ### What an attachment does to the regions -/

variable [Device δ] {base : UInt64} {device : δ}

theorem state_attach_of_error {e : AccessError} (h : (bus.attach base device).answer = .error e) :
    (bus.attach base device).state = bus := by
  have hattachment := bus.attachment_attach base device
  generalize bus.attach base device = o at h hattachment
  cases hattachment with
  | outside => rfl
  | obstructed => rfl
  | mapped => cases h

/-- A device that is not empty, or whose base is not taken, gets a region of its own, or none. -/
theorem Laid.attach_own (h : bus.Laid)
    (hown : Device.size device ≠ 0 ∨ ∀ r ∈ bus.regions, r.base ≠ base) :
    ((bus.attach base device).answer = .ok () →
      ∃ before after, bus.regions = before ++ after ∧
        (bus.attach base device).state.regions =
          before ++ Region.ofDevice base device :: after) ∧
      ∀ address size r width, bus.locate address size = .ok (r, width) →
        (bus.attach base device).state.locate address size = .ok (r, width) := by
  have hlaid := h.attach base device
  have hattachment := bus.attachment_attach base device
  generalize bus.attach base device = o at hlaid hattachment
  cases hattachment with
  | outside => exact ⟨(fun hok => by cases hok), fun _ _ _ _ hlocate => hlocate⟩
  | obstructed => exact ⟨(fun hok => by cases hok), fun _ _ _ _ hlocate => hlocate⟩
  | mapped hfits hoverlap =>
    have hbase : ∀ r ∈ bus.regions, r.key ≠ (Region.ofDevice base device).key := by
      obtain hnonempty | hfree := hown
      · exact Laid.key_ne_of_free ((h.overlap?_eq_none_iff hfits).mp hoverlap) hnonempty
      · exact fun r hr hkey => hfree r hr (UInt64.toNat_inj.mp hkey)
    exact ⟨fun _ => h.insert_regions hbase,
      fun _ _ _ _ hlocate => h.locate_insert hlaid hbase hlocate⟩

/-- An empty device at a base that is taken takes the place of the region there. -/
theorem Laid.attach_empty (h : bus.Laid) {r : Region δ} (hr : r ∈ bus.regions)
    (hempty : Device.size device = 0) :
    (bus.attach r.base device).answer = .ok () ∧
      ∃ before after, bus.regions = before ++ r :: after ∧
        (bus.attach r.base device).state.regions =
          before ++ Region.ofDevice r.base device :: after := by
  have hlimit : (Region.ofDevice r.base device).limit = r.key := by
    simp only [Region.ofDevice, Region.limit, hempty]
    rfl
  have hattachment := bus.attachment_attach r.base device
  generalize bus.attach r.base device = o at hattachment
  cases hattachment with
  | outside hwraps =>
    rw [hlimit] at hwraps
    exact absurd r.base.toNat_lt (Nat.not_lt.mpr hwraps)
  | obstructed hfits hoverlap =>
    obtain ⟨hs, hobstructs⟩ := h.obstructs_of_overlap? hfits hoverlap
    rw [hlimit] at hobstructs
    exact absurd hobstructs (h.not_obstructs_empty hr _ hs)
  | mapped =>
    obtain ⟨before, after, hsplit⟩ := List.append_of_mem hr
    refine ⟨rfl, before, after, hsplit, ?_⟩
    have hascending := h.ascending
    rw [hsplit] at hascending ⊢
    exact hascending.insert_of_key_eq rfl

/-- The attachment of a device to a bus that came about from the empty one. If it is refused, the bus
stays as it is. If it is accepted, and the device is not empty or its base is not taken, one region is
added and all others stay; accepted or refused, an access that went to a region goes there still. An
empty device at a base that is taken is accepted, and its region takes the place of the one there. -/
theorem Reachable.attach_frame (h : bus.Reachable) (base : UInt64) (device : δ) :
    let o := bus.attach base device
    (∀ e, o.answer = .error e → o.state = bus) ∧
      ((Device.size device ≠ 0 ∨ ∀ r ∈ bus.regions, r.base ≠ base) →
        (o.answer = .ok () →
          ∃ before after, bus.regions = before ++ after ∧
            o.state.regions = before ++ Region.ofDevice base device :: after) ∧
        ∀ address size r width,
          bus.locate address size = .ok (r, width) →
            o.state.locate address size = .ok (r, width)) ∧
      ∀ r ∈ bus.regions, r.base = base → Device.size device = 0 →
        o.answer = .ok () ∧ ∃ before after, bus.regions = before ++ r :: after ∧
          o.state.regions = before ++ Region.ofDevice base device :: after := by
  have hlaid := h.laid
  refine ⟨fun _ => state_attach_of_error, hlaid.attach_own, ?_⟩
  rintro r hr rfl hempty
  exact hlaid.attach_empty hr hempty

section Probes

/-- A probe behind another one. The first one keeps its region and its accesses. -/
theorem attach_frame_behind_probe :
    let probe (size : UInt64) : Probe := { size := size, pattern := 0, refusal := none }
    let bus := (empty.attach 0x1000 (probe 0x10)).state
    let o := bus.attach 0x1010 (probe 8)
    (∃ before after, bus.regions = before ++ after ∧
        o.state.regions = before ++ ⟨0x1010, 8, probe 8⟩ :: after) ∧
      o.state.locate 0x100C 4 = .ok (⟨0x1000, 0x10, probe 0x10⟩, .word) := by
  intro probe bus o
  have hreachable : bus.Reachable := Reachable.empty.attach _ _
  have hsize : Device.size (probe 8) ≠ 0 := by decide
  obtain ⟨-, hframe, -⟩ := hreachable.attach_frame 0x1010 (probe 8)
  obtain ⟨hregions, hlocate⟩ := hframe (.inl hsize)
  exact ⟨hregions rfl, hlocate _ _ _ _ (by cbv)⟩

/-- An empty probe at the base of another one is accepted. The other one is no longer mapped, and
accesses to it are refused. -/
theorem attach_empty_unmaps :
    let probe (size : UInt64) : Probe := { size := size, pattern := 0, refusal := none }
    let bus := (empty.attach 0x1000 (probe 0x1000)).state
    let o := bus.attach 0x1000 (probe 0)
    bus.Reachable ∧ o.answer = .ok () ∧
      bus.regions = [⟨0x1000, 0x1000, probe 0x1000⟩] ∧
      o.state.regions = [⟨0x1000, 0, probe 0⟩] ∧
      bus.locate 0x1000 4 = .ok (⟨0x1000, 0x1000, probe 0x1000⟩, .word) ∧
      o.state.locate 0x1000 4 = .error (.unmapped 0x1000) :=
  ⟨Reachable.empty.attach _ _, rfl, rfl, rfl, rfl, rfl⟩

end Probes

end Bus

end RemoteRegisters
