import RemoteRegisters.Device.Probe
import RemoteRegisters.Proofs.Bus.Layout

/-!
# When a device is refused

A new region is compared with its two neighbours and with no other region. On a
bus that came about from the empty one this decides the question for the whole
table: the attachment is refused exactly if the region would run past the end of
the address space or some region is in its way, and the error names a region that
really is (`Bus.Reachable.attach_answer`).
-/

namespace RemoteRegisters

namespace Region

variable {δ : Type} {r new : Region δ}

theorem holds_key (h : r.size ≠ 0) : r.Holds r.key := by
  have hsize : r.size.toNat ≠ 0 := fun hzero => h (UInt64.toNat_inj.mp hzero)
  refine ⟨Nat.le_refl _, ?_⟩
  unfold limit key
  omega

/-- A region is in the way of a new one only if the two share an address, or if it is empty and
starts within the new one. -/
theorem not_obstructs_of_disjoint (hnonempty : new.size ≠ 0)
    (hdisjoint : ∀ address, ¬(r.Holds address ∧ new.Holds address))
    (hempty : r.size = 0 → ¬new.Holds r.key) : ¬r.Obstructs new.key new.limit := by
  rintro (hwithin | ⟨hbelow, hover⟩)
  · by_cases hsize : r.size = 0
    · exact hempty hsize hwithin
    · exact hdisjoint r.key ⟨r.holds_key hsize, hwithin⟩
  · exact hdisjoint new.key ⟨⟨Nat.le_of_lt hbelow, hover⟩, new.holds_key hnonempty⟩

end Region

namespace Bus

variable {δ : Type} {bus : Bus δ}

/-- No two regions share an address. -/
theorem Laid.pairwise_disjoint (h : bus.Laid) :
    bus.regions.Pairwise fun r s => ∀ address, ¬(r.Holds address ∧ s.Holds address) := by
  refine h.ascending.imp_of_mem fun {r s} hr hs hlt address => ?_
  rintro ⟨⟨-, hbelow⟩, habove, -⟩
  have := h.apart r hr s hs hlt
  omega

variable [Device δ]

theorem attach_of_outside {base : UInt64} {device : δ}
    (hwraps : UInt64.size ≤ (Region.ofDevice base device).limit) :
    (bus.attach base device).answer = .error (.unmapped base) := by
  have hattachment := bus.attachment_attach base device
  generalize bus.attach base device = o at hattachment
  cases hattachment with
  | outside => rfl
  | obstructed hfits => exact absurd hwraps (Nat.not_le.mpr hfits)
  | mapped hfits => exact absurd hwraps (Nat.not_le.mpr hfits)

/-- A device that fits is refused, and the error names a region in its way, or it is accepted, and no
region is in its way. -/
theorem Laid.attach_of_fits (h : bus.Laid) {base : UInt64} {device : δ}
    (hfits : (Region.ofDevice base device).limit < UInt64.size) :
    (∃ r ∈ bus.regions, r.Obstructs base.toNat (Region.ofDevice base device).limit ∧
        (bus.attach base device).answer =
          .error (.overlap r.span (Region.ofDevice base device).span)) ∨
      (∀ r ∈ bus.regions, ¬r.Obstructs base.toNat (Region.ofDevice base device).limit) ∧
        (bus.attach base device).answer = .ok () := by
  have hattachment := bus.attachment_attach base device
  generalize bus.attach base device = o at hattachment
  cases hattachment with
  | outside hwraps => exact absurd hfits (Nat.not_lt.mpr hwraps)
  | @obstructed r _ hoverlap =>
    obtain ⟨hr, hobstructs⟩ := h.obstructs_of_overlap? hfits hoverlap
    exact .inl ⟨r, hr, hobstructs, rfl⟩
  | mapped _ hoverlap => exact .inr ⟨(h.overlap?_eq_none_iff hfits).mp hoverlap, rfl⟩

/-- The answer to the attachment of a device to a bus that came about from the empty one. A region
that does not end inside the address space is refused for its base. Any other is refused exactly if
some region is in its way, and then the error names such a region and the new one by their ranges;
else it is accepted. So a device that is not empty is accepted where it fits, if its region shares no
address with another one and no empty region starts within it; and no two regions of the bus share an
address. -/
theorem Reachable.attach_answer (h : bus.Reachable) (base : UInt64) (device : δ) :
    let new := Region.ofDevice base device
    let answer := (bus.attach base device).answer
    (answer = .error (.unmapped base) ↔ UInt64.size ≤ base.toNat + (Device.size device).toNat) ∧
      (base.toNat + (Device.size device).toNat < UInt64.size →
        ((∃ existing claimed, answer = .error (.overlap existing claimed)) ↔
          ∃ r ∈ bus.regions, r.Obstructs new.key new.limit) ∧
        (∀ existing claimed, answer = .error (.overlap existing claimed) →
          (∃ r ∈ bus.regions, r.Obstructs new.key new.limit ∧
            existing.start = r.base ∧ existing.stop.toNat = r.base.toNat + r.size.toNat) ∧
          claimed.start = base ∧
          claimed.stop.toNat = base.toNat + (Device.size device).toNat) ∧
        (answer = .ok () ↔ ∀ r ∈ bus.regions, ¬r.Obstructs new.key new.limit)) ∧
      (Device.size device ≠ 0 →
        (∀ r ∈ bus.regions, ∀ address, ¬(r.Holds address ∧ new.Holds address)) →
        (∀ r ∈ bus.regions, r.size = 0 → ¬new.Holds r.key) →
        (answer = .ok () ↔ base.toNat + (Device.size device).toNat < UInt64.size)) ∧
      bus.regions.Pairwise fun r s => ∀ address, ¬(r.Holds address ∧ s.Holds address) := by
  intro new answer
  have hlaid := h.laid
  refine ⟨⟨fun herror => ?_, attach_of_outside⟩, fun hfits => ?_, fun hnonempty hdisjoint hempty => ?_,
    hlaid.pairwise_disjoint⟩
  · refine Nat.le_of_not_lt fun hfits => ?_
    obtain ⟨r, -, -, hrefused⟩ | ⟨-, haccepted⟩ := hlaid.attach_of_fits hfits
    · cases herror.symm.trans hrefused
    · cases herror.symm.trans haccepted
  · obtain ⟨r, hr, hobstructs, hrefused⟩ | ⟨hfree, haccepted⟩ := hlaid.attach_of_fits hfits
    · refine ⟨⟨fun _ => ⟨r, hr, hobstructs⟩, fun _ => ⟨_, _, hrefused⟩⟩, fun existing claimed herror => ?_,
        ⟨fun hok => ?_, fun hfree => absurd hobstructs (hfree r hr)⟩⟩
      · cases herror.symm.trans hrefused
        exact ⟨⟨r, hr, hobstructs, rfl, Region.toNat_stop (hlaid.fits r hr)⟩, rfl,
          Region.toNat_stop hfits⟩
      · cases hok.symm.trans hrefused
    · refine ⟨⟨?_, ?_⟩, fun existing claimed herror => ?_, fun _ => hfree, fun _ => haccepted⟩
      · rintro ⟨_, _, herror⟩
        cases herror.symm.trans haccepted
      · rintro ⟨r, hr, hobstructs⟩
        exact absurd hobstructs (hfree r hr)
      · cases herror.symm.trans haccepted
  · have hfree (r : Region δ) (hr : r ∈ bus.regions) : ¬r.Obstructs new.key new.limit :=
      Region.not_obstructs_of_disjoint hnonempty (hdisjoint r hr) (hempty r hr)
    refine ⟨fun hok => Nat.lt_of_not_le fun hwraps => ?_, fun hfits => ?_⟩
    · cases hok.symm.trans (attach_of_outside hwraps)
    · obtain ⟨r, hr, hobstructs, -⟩ | ⟨-, haccepted⟩ := hlaid.attach_of_fits hfits
      · exact absurd hobstructs (hfree r hr)
      · exact haccepted

/-- A probe and an empty one behind it. A region that reaches from the first one over the second is
refused for the first one that it meets, and one between the two is accepted. -/
theorem attach_answer_over_probes :
    let probe (size : UInt64) : Probe := { size := size, pattern := 0, refusal := none }
    let bus := ((empty.attach 0x10 (probe 0x10)).state.attach 0x30 (probe 0)).state
    (∃ r ∈ bus.regions, r.Obstructs 0x18 0x38) ∧
      (bus.attach 0x18 (probe 0x20)).answer =
        .error (.overlap ⟨0x30, 0x30⟩ ⟨0x18, 0x38⟩) ∧
      (bus.attach 0x20 (probe 0x10)).answer = .ok () := by
  intro probe bus
  have hreachable : bus.Reachable := (Reachable.empty.attach _ _).attach _ _
  have hregions : bus.regions = [⟨0x10, 0x10, probe 0x10⟩, ⟨0x30, 0, probe 0⟩] := rfl
  obtain ⟨-, hrefused, -⟩ := hreachable.attach_answer 0x18 (probe 0x20)
  obtain ⟨-, haccepted, -⟩ := hreachable.attach_answer 0x20 (probe 0x10)
  have hobstructs := (hrefused (by decide)).1.mp ⟨_, _, rfl⟩
  refine ⟨hobstructs, rfl, (haccepted (by decide)).2.2.mpr ?_⟩
  intro r hr
  rw [hregions] at hr
  simp only [List.mem_cons, List.not_mem_nil, or_false] at hr
  obtain rfl | rfl := hr
  · rintro (⟨hlow, -⟩ | ⟨-, hhigh⟩)
    · exact absurd hlow (by decide)
    · exact absurd hhigh (by decide)
  · rintro (⟨-, hhigh⟩ | ⟨hlow, -⟩)
    · exact absurd hhigh (by decide)
    · exact absurd hlow (by decide)

end Bus

end RemoteRegisters
