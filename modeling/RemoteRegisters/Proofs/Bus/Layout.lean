import RemoteRegisters.Bus
import RemoteRegisters.Proofs.Keyed

/-!
# How the regions of a bus lie

A bus that was built up from the empty one keeps its regions apart
(`Bus.Reachable.laid`), whatever was attached to it, refused or accessed on the
way. A new region is checked against its two neighbours only; in a bus with its
regions apart that finds every region in the way
(`Bus.Laid.overlap?_eq_none_iff`).

## Main definitions

- `Region.limit` — the end of a region in unbounded numbers
- `Region.Holds` — an address lies in a region
- `Region.Obstructs` — a region is in the way of a new one
- `Bus.Laid` — the regions ascend, fit into the address space and lie apart
- `Bus.Reachable` — the buses that come about from the empty one
- `Bus.Attachment` — the ends that the attachment of a device can come to
-/

namespace RemoteRegisters

namespace Region

variable {δ : Type} {r : Region δ}

/-- The region of a device that is mapped at a base. -/
def ofDevice [Device δ] (base : UInt64) (device : δ) : Region δ :=
  ⟨base, Device.size device, device⟩

/-- The end of a region in unbounded numbers. -/
def limit (r : Region δ) : Nat :=
  r.base.toNat + r.size.toNat

/-- The end of a region that fits into the address space does not wrap around. -/
theorem toNat_stop (h : r.limit < UInt64.size) : r.stop.toNat = r.limit :=
  Address.toNat_add_of_lt h

theorem lt_stop_iff (h : r.limit < UInt64.size) {address : UInt64} :
    address < r.stop ↔ address.toNat < r.limit := by
  rw [UInt64.lt_iff_toNat_lt, toNat_stop h]

/-- An address lies in a region. No address lies in an empty one. -/
def Holds (r : Region δ) (address : Nat) : Prop :=
  r.key ≤ address ∧ address < r.limit

/-- A region starts where a new one from `base` up to `stop` would lie, or reaches over `base`. -/
def Obstructs (r : Region δ) (base stop : Nat) : Prop :=
  base ≤ r.key ∧ r.key < stop ∨ r.key < base ∧ base < r.limit

end Region

namespace Bus

variable {δ : Type} {bus : Bus δ}

/-- The regions of a bus are in ascending order of their bases, no two with the same base. Each ends
inside the address space, and of two regions the lower one ends before the higher one starts. -/
structure Laid (bus : Bus δ) : Prop where
  ascending : Keyed.Ascending Region.key bus.regions
  fits : ∀ r ∈ bus.regions, r.limit < UInt64.size
  apart : ∀ r ∈ bus.regions, ∀ s ∈ bus.regions, r.key < s.key → r.limit ≤ s.key

theorem laid_empty : (empty : Bus δ).Laid where
  ascending := List.Pairwise.nil
  fits _ hr := (List.not_mem_nil hr).elim
  apart _ hr := (List.not_mem_nil hr).elim

namespace Laid

/-! ### The region at an address -/

/-- Two regions that hold one address are the same. -/
theorem eq_of_holds (h : bus.Laid) {r s : Region δ} (hr : r ∈ bus.regions) (hs : s ∈ bus.regions)
    {address : Nat} (hrholds : r.Holds address) (hsholds : s.Holds address) : r = s := by
  obtain ⟨hrlow, hrhigh⟩ := hrholds
  obtain ⟨hslow, hshigh⟩ := hsholds
  apply h.ascending.eq_of_key_eq hr hs
  obtain hlt | heq | hgt := Nat.lt_trichotomy r.key s.key
  · have := h.apart r hr s hs hlt
    omega
  · exact heq
  · have := h.apart s hs r hr hgt
    omega

theorem regionUpTo?_eq_some_iff (h : bus.Laid) {address : UInt64} {r : Region δ} :
    bus.regionUpTo? address = some r ↔
      r ∈ bus.regions ∧ r.key ≤ address.toNat ∧
        ∀ s ∈ bus.regions, s.key ≤ address.toNat → s.key ≤ r.key := by
  rw [regionUpTo?, h.ascending.getLast?_filter_eq_some_iff]
  simp only [decide_eq_true_eq]
  rfl

/-- The nearest region that starts no later than an address is the one that holds it, if any does. -/
theorem regionAt?_eq_some_iff (h : bus.Laid) {address : UInt64} {r : Region δ} :
    bus.regionAt? address = some r ↔ r ∈ bus.regions ∧ r.Holds address.toNat := by
  have hinside (hr : r ∈ bus.regions) :
      decide (r.base ≤ address ∧ address < r.stop) = true ↔ r.Holds address.toNat := by
    rw [decide_eq_true_eq, UInt64.le_iff_toNat_le, Region.lt_stop_iff (h.fits r hr)]
    rfl
  rw [regionAt?, Option.filter_eq_some_iff, h.regionUpTo?_eq_some_iff]
  constructor
  · rintro ⟨⟨hr, -, -⟩, hholds⟩
    exact ⟨hr, (hinside hr).mp hholds⟩
  · rintro ⟨hr, hholds⟩
    refine ⟨⟨hr, hholds.1, fun s hs hlow => ?_⟩, (hinside hr).mpr hholds⟩
    -- a region that starts between would start before this one ends
    refine Nat.le_of_not_lt fun hlt => ?_
    have hstop := h.apart r hr s hs hlt
    exact absurd hholds.2 (Nat.not_lt.mpr (Nat.le_trans hstop hlow))

/-! ### The neighbours of a new region -/

variable {new : Region δ}

theorem regionFrom?_eq_some_iff (h : bus.Laid) {base : UInt64} {r : Region δ} :
    bus.regionFrom? base = some r ↔
      r ∈ bus.regions ∧ base.toNat ≤ r.key ∧ ∀ s ∈ bus.regions, base.toNat ≤ s.key → r.key ≤ s.key := by
  rw [regionFrom?, h.ascending.find?_eq_some_iff]
  simp only [decide_eq_true_eq]
  rfl

theorem regionBelow?_eq_some_iff (h : bus.Laid) {base : UInt64} {r : Region δ} :
    bus.regionBelow? base = some r ↔
      r ∈ bus.regions ∧ r.key < base.toNat ∧ ∀ s ∈ bus.regions, s.key < base.toNat → s.key ≤ r.key := by
  rw [regionBelow?, h.ascending.getLast?_filter_eq_some_iff]
  simp only [decide_eq_true_eq]
  rfl

theorem obstructs_of_overlap? (h : bus.Laid) (hfits : new.limit < UInt64.size) {r : Region δ}
    (hoverlap : bus.overlap? new.base new.stop = some r) :
    r ∈ bus.regions ∧ r.Obstructs new.key new.limit := by
  unfold overlap? at hoverlap
  split at hoverlap
  · rename_i s hs
    cases hoverlap
    obtain ⟨hfrom, hstop⟩ := Option.filter_eq_some_iff.mp hs
    obtain ⟨hr, hlow, -⟩ := h.regionFrom?_eq_some_iff.mp hfrom
    exact ⟨hr, .inl ⟨hlow, (Region.lt_stop_iff hfits).mp (of_decide_eq_true hstop)⟩⟩
  · obtain ⟨hbelow, hstop⟩ := Option.filter_eq_some_iff.mp hoverlap
    obtain ⟨hr, hlow, -⟩ := h.regionBelow?_eq_some_iff.mp hbelow
    exact ⟨hr, .inr ⟨hlow, (Region.lt_stop_iff (h.fits r hr)).mp (of_decide_eq_true hstop)⟩⟩

/-- The two neighbours are enough: where neither is in the way, no region is. -/
theorem overlap?_eq_none_iff (h : bus.Laid) (hfits : new.limit < UInt64.size) :
    bus.overlap? new.base new.stop = none ↔
      ∀ r ∈ bus.regions, ¬r.Obstructs new.key new.limit := by
  constructor
  · intro hnone r hr hobstructs
    unfold overlap? at hnone
    split at hnone
    · cases hnone
    · rename_i hfrom
      rw [Option.filter_eq_none_iff] at hfrom hnone
      obtain ⟨hlow, hhigh⟩ | ⟨hlow, hhigh⟩ := hobstructs
      · -- the next region above starts no later than this one
        cases hnext : bus.regionFrom? new.base with
        | none =>
          have := List.find?_eq_none.mp hnext r hr
          exact this (decide_eq_true hlow)
        | some next =>
          obtain ⟨-, -, hleast⟩ := h.regionFrom?_eq_some_iff.mp hnext
          refine hfrom next hnext (decide_eq_true ((Region.lt_stop_iff hfits).mpr ?_))
          exact Nat.lt_of_le_of_lt (hleast r hr hlow) hhigh
      · -- this region is the next one below, for it would end before any other that is below
        have hnext : bus.regionBelow? new.base = some r := by
          refine h.regionBelow?_eq_some_iff.mpr ⟨hr, hlow, fun s hs hslow => ?_⟩
          refine Nat.le_of_not_lt fun hgt => ?_
          have hstop := h.apart r hr s hs hgt
          exact absurd hhigh (Nat.not_lt.mpr (Nat.le_trans hstop (Nat.le_of_lt hslow)))
        exact hnone r hnext (decide_eq_true ((Region.lt_stop_iff (h.fits r hr)).mpr hhigh))
  · intro hfree
    cases hsome : bus.overlap? new.base new.stop with
    | none => rfl
    | some r =>
      obtain ⟨hr, hobstructs⟩ := h.obstructs_of_overlap? hfits hsome
      exact absurd hobstructs (hfree r hr)

/-- A region that nothing is in the way of is inserted at its place. -/
theorem insert (h : bus.Laid) (hfits : new.limit < UInt64.size)
    (hfree : ∀ r ∈ bus.regions, ¬r.Obstructs new.key new.limit) :
    Laid ⟨Keyed.insert Region.key new bus.regions⟩ where
  ascending := Keyed.ascending_insert h.ascending new
  fits r hr := by
    obtain rfl | ⟨hold, -⟩ := h.ascending.mem_insert_iff.mp hr
    · exact hfits
    · exact h.fits r hold
  apart r hr s hs hlt := by
    obtain rfl | ⟨hrold, -⟩ := h.ascending.mem_insert_iff.mp hr
    · obtain rfl | ⟨hsold, -⟩ := h.ascending.mem_insert_iff.mp hs
      · exact absurd hlt (Nat.lt_irrefl _)
      · exact Nat.le_of_not_lt fun hgt => hfree s hsold (.inl ⟨Nat.le_of_lt hlt, hgt⟩)
    · obtain rfl | ⟨hsold, -⟩ := h.ascending.mem_insert_iff.mp hs
      · exact Nat.le_of_not_lt fun hgt => hfree r hrold (.inr ⟨hlt, hgt⟩)
      · exact h.apart r hrold s hsold hlt

/-- Only the state of a device changes, and all regions stay where they are. -/
theorem setDevice (h : bus.Laid) (base : UInt64) (device : δ) : (bus.setDevice base device).Laid := by
  have hkey (r : Region δ) :
      (if r.base = base then { r with device := device } else r).key = r.key := by
    split <;> rfl
  have hlimit (r : Region δ) :
      (if r.base = base then { r with device := device } else r).limit = r.limit := by
    split <;> rfl
  refine ⟨?_, ?_, ?_⟩
  · refine List.pairwise_map.mpr (h.ascending.imp fun hlt => ?_)
    rwa [hkey, hkey]
  · intro r hr
    obtain ⟨old, hold, rfl⟩ := List.mem_map.mp hr
    rw [hlimit]
    exact h.fits old hold
  · intro r hr s hs hlt
    obtain ⟨rold, hrold, rfl⟩ := List.mem_map.mp hr
    obtain ⟨sold, hsold, rfl⟩ := List.mem_map.mp hs
    rw [hkey, hkey] at hlt
    rw [hlimit, hkey]
    exact h.apart rold hrold sold hsold hlt

end Laid

/-! ### Attaching a device -/

section Device

variable [Device δ]

/-- What comes of the attachment of a device. -/
inductive Attachment (bus : Bus δ) (base : UInt64) (device : δ) :
    Outcome (Bus δ) (Except AccessError Unit) → Prop where
  /-- The region would run past the end of the address space. -/
  | outside :
      UInt64.size ≤ (Region.ofDevice base device).limit →
        Attachment bus base device ⟨.error (.unmapped base), bus, []⟩
  | obstructed {r : Region δ} :
      (Region.ofDevice base device).limit < UInt64.size →
        bus.overlap? base (Region.ofDevice base device).stop = some r →
        Attachment bus base device
          ⟨.error (.overlap r.span (Region.ofDevice base device).span), bus, []⟩
  | mapped :
      (Region.ofDevice base device).limit < UInt64.size →
        bus.overlap? base (Region.ofDevice base device).stop = none →
        Attachment bus base device
          { answer := .ok ()
            state := ⟨Keyed.insert Region.key (Region.ofDevice base device) bus.regions⟩
            log := [.regionMapped (Region.ofDevice base device).span.start
              (Region.ofDevice base device).span.stop] }

theorem attachment_attach (bus : Bus δ) (base : UInt64) (device : δ) :
    bus.Attachment base device (bus.attach base device) := by
  unfold attach
  dsimp only
  cases hsum : Address.checkedAdd? base (Device.size device) with
  | none => exact .outside (Address.checkedAdd?_eq_none_iff.mp hsum)
  | some stop =>
    obtain ⟨hfits, rfl⟩ := Address.checkedAdd?_eq_some_iff.mp hsum
    dsimp only
    split
    · rename_i r hoverlap
      exact .obstructed hfits hoverlap
    · rename_i hoverlap
      exact .mapped hfits hoverlap

theorem Laid.attach (h : bus.Laid) (base : UInt64) (device : δ) :
    (bus.attach base device).state.Laid := by
  have hattachment := bus.attachment_attach base device
  generalize bus.attach base device = o at hattachment
  cases hattachment with
  | outside => exact h
  | obstructed => exact h
  | mapped hfits hoverlap => exact h.insert hfits ((h.overlap?_eq_none_iff hfits).mp hoverlap)

theorem perform_of_refused {c : Call} {e : AccessError}
    (h : bus.locate c.address c.size = .error e) :
    bus.perform c = ⟨.error e, bus, [callEvent c]⟩ := by
  simp only [perform, h]

theorem perform_of_located {c : Call} {r : Region δ} {width : Width}
    (h : bus.locate c.address c.size = .ok (r, width)) :
    bus.perform c =
      let o := Device.access r.device (c.address - r.base) width c.operation
      ⟨o.answer, bus.setDevice r.base o.state, callEvent c :: o.log⟩ := by
  simp only [perform, h]

theorem Laid.perform (h : bus.Laid) (c : Call) : (bus.perform c).state.Laid := by
  cases hlocate : bus.locate c.address c.size with
  | error e =>
    rw [perform_of_refused hlocate]
    exact h
  | ok found =>
    rw [perform_of_located hlocate]
    exact h.setDevice _ _

/-! ### Buses that come about -/

/-- The buses that come about from the empty one by attaching devices, successfully or not, and by
accesses. -/
inductive Reachable : Bus δ → Prop where
  | empty : Reachable .empty
  | attach {bus : Bus δ} (h : Reachable bus) (base : UInt64) (device : δ) :
      Reachable (bus.attach base device).state
  | perform {bus : Bus δ} (h : Reachable bus) (c : Call) : Reachable (bus.perform c).state

theorem Reachable.laid (h : bus.Reachable) : bus.Laid := by
  induction h with
  | empty => exact laid_empty
  | attach _ base device ih => exact ih.attach base device
  | perform _ c ih => exact ih.perform c

end Device

end Bus

end RemoteRegisters
