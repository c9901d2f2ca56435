import RemoteRegisters.Device.Probe
import RemoteRegisters.Proofs.Bus.Attachment
import RemoteRegisters.Proofs.Bus.Overlap

/-!
# Buses put together from a list of devices

Devices whose windows lie apart can be attached in any order. Only the windows
attached so far could be in the way of the next one, and none of them is; the
regions end up in the order of their bases, whatever the order was in which they
came. So the bus that comes about is the same for every order
(`Bus.assembled_perm`), and with it all that accesses come to.

## Main definitions

- `Bus.attachAll`, `Bus.assembled` — devices attached one after the other, and the bus that comes about
- `Bus.Compatible` — devices that fit on one bus
- `Bus.Carries` — a bus has the regions of some devices and no others
- `Bus.layout` — where the regions of a bus lie
-/

namespace RemoteRegisters

variable {δ : Type}

/-- The region that a device asks for together with a base. -/
def Region.requested [Device δ] (p : UInt64 × δ) : Region δ :=
  .ofDevice p.1 p.2

/-- An access has the size of a width and is aligned to it, and all its bytes lie in the window of a
device at a base. -/
structure Call.LiesIn [Device δ] (c : Call) (p : UInt64 × δ) : Prop where
  size : c.size = 1 ∨ c.size = 2 ∨ c.size = 4
  aligned : c.size.toNat ∣ c.address.toNat
  starts : p.1.toNat ≤ c.address.toNat
  ends : c.address.toNat + c.size.toNat ≤ p.1.toNat + (Device.size p.2).toNat

namespace Bus

variable [Device δ] {bus bus' : Bus δ} {p : UInt64 × δ} {ps qs attached : List (UInt64 × δ)}

/-- Attaches devices one after the other, each with what came of it. -/
def attachAll (bus : Bus δ) : List (UInt64 × δ) → List (Outcome (Bus δ) (Except AccessError Unit))
  | [] => []
  | p :: ps =>
      let o := bus.attach p.1 p.2
      o :: o.state.attachAll ps

def assembled (bus : Bus δ) (ps : List (UInt64 × δ)) : Bus δ :=
  ps.foldl (fun bus p => (bus.attach p.1 p.2).state) bus

/-- Devices that fit on one bus: none is empty, each ends inside the address space, and no two share
an address. -/
structure Compatible (ps : List (UInt64 × δ)) : Prop where
  nonempty : ∀ p ∈ ps, Device.size p.2 ≠ 0
  fits : ∀ p ∈ ps, p.1.toNat + (Device.size p.2).toNat < UInt64.size
  disjoint : ps.Pairwise fun p q =>
    ∀ address, ¬((Region.requested p).Holds address ∧ (Region.requested q).Holds address)

theorem Compatible.of_perm (h : Compatible ps) (hperm : qs.Perm ps) : Compatible qs where
  nonempty p hp := h.nonempty p (hperm.mem_iff.mp hp)
  fits p hp := h.fits p (hperm.mem_iff.mp hp)
  disjoint := hperm.symm.pairwise h.disjoint fun hdisjoint address hboth =>
    hdisjoint address hboth.symm

theorem Compatible.sublist (h : Compatible ps) (hsub : qs.Sublist ps) : Compatible qs where
  nonempty p hp := h.nonempty p (hsub.subset hp)
  fits p hp := h.fits p (hsub.subset hp)
  disjoint := h.disjoint.sublist hsub

/-! ### The bus on the way -/

/-- The regions of a bus lie apart, and they are those of some devices. -/
structure Carries (bus : Bus δ) (ps : List (UInt64 × δ)) : Prop where
  laid : bus.Laid
  regions : bus.regions.Perm (ps.map Region.requested)

namespace Carries

theorem empty : (Bus.empty : Bus δ).Carries [] :=
  ⟨laid_empty, List.Perm.nil⟩

theorem of_perm (h : bus.Carries ps) (hperm : qs.Perm ps) : bus.Carries qs :=
  ⟨h.laid, h.regions.trans (hperm.symm.map _)⟩

/-- Which devices a bus carries determines the bus. -/
theorem unique (h : bus.Carries ps) (h' : bus'.Carries ps) : bus = bus' := by
  have hregions : bus.regions = bus'.regions :=
    h.laid.ascending.eq_of_perm h'.laid.ascending (h.regions.trans h'.regions.symm)
  cases bus
  cases bus'
  exact congrArg _ hregions

/-- No region is in the way of a device that fits on one bus with those attached before. -/
theorem not_obstructs (h : bus.Carries attached) (hcompatible : Compatible (p :: attached)) :
    ∀ r ∈ bus.regions, ¬r.Obstructs (Region.requested p).key (Region.requested p).limit := by
  intro r hr
  obtain ⟨q, hq, rfl⟩ := List.mem_map.mp (h.regions.mem_iff.mp hr)
  have hq' : q ∈ p :: attached := List.mem_cons_of_mem p hq
  have hdisjoint := (List.pairwise_cons.mp hcompatible.disjoint).1 q hq
  apply Region.not_obstructs_of_disjoint
  · exact hcompatible.nonempty p List.mem_cons_self
  · exact fun address hboth => hdisjoint address hboth.symm
  · exact fun hempty => absurd hempty (hcompatible.nonempty q hq')

/-- One more device that fits is accepted, and its region is added. -/
theorem attach (h : bus.Carries attached) (hcompatible : Compatible (p :: attached)) :
    (bus.attach p.1 p.2).answer = .ok () ∧ (bus.attach p.1 p.2).state.Carries (p :: attached) := by
  have hnonempty := hcompatible.nonempty p List.mem_cons_self
  have hok : (bus.attach p.1 p.2).answer = .ok () := by
    obtain ⟨r, hr, hobstructs, -⟩ | ⟨-, haccepted⟩ :=
      h.laid.attach_of_fits (hcompatible.fits p List.mem_cons_self)
    · exact absurd hobstructs (h.not_obstructs hcompatible r hr)
    · exact haccepted
  have hown : Device.size p.2 ≠ 0 ∨ ∀ r ∈ bus.regions, r.base ≠ p.1 := .inl hnonempty
  obtain ⟨hadded, -⟩ := h.laid.attach_own hown
  obtain ⟨before, after, hbefore, hafter⟩ := hadded hok
  refine ⟨hok, h.laid.attach p.1 p.2, ?_⟩
  rw [hafter]
  refine List.perm_middle.trans (List.Perm.cons _ ?_)
  rw [← hbefore]
  exact h.regions

/-- All devices that fit are accepted, and their regions are added. -/
theorem attachAll (h : bus.Carries attached) (hcompatible : Compatible (ps ++ attached)) :
    (∀ o ∈ bus.attachAll ps, o.answer = .ok ()) ∧ (bus.assembled ps).Carries (ps ++ attached) := by
  induction ps generalizing bus attached with
  | nil => exact ⟨fun _ ho => (List.not_mem_nil ho).elim, h⟩
  | cons p ps ih =>
    have hperm : (p :: ps ++ attached).Perm (ps ++ p :: attached) := List.perm_middle.symm
    have hnext : Compatible (ps ++ p :: attached) := hcompatible.of_perm hperm.symm
    obtain ⟨hok, hcarries⟩ := h.attach (hnext.sublist (List.sublist_append_right ps _))
    obtain ⟨hrest, hassembled⟩ := ih hcarries hnext
    refine ⟨fun o ho => ?_, hassembled.of_perm hperm⟩
    obtain rfl | ho := List.mem_cons.mp ho
    · exact hok
    · exact hrest o ho

end Carries

/-! ### Where the regions lie while the bus is used -/

/-- The bases and sizes of the regions of a bus. -/
def layout (bus : Bus δ) : List (UInt64 × UInt64) :=
  bus.regions.map fun r => (r.base, r.size)

omit [Device δ] in
theorem layout_setDevice (bus : Bus δ) (base : UInt64) (device : δ) :
    (bus.setDevice base device).layout = bus.layout := by
  rw [layout, setDevice, List.map_map]
  refine List.map_congr_left fun r _ => ?_
  dsimp only [Function.comp_apply]
  split <;> rfl

theorem layout_perform (bus : Bus δ) (c : Call) : (bus.perform c).state.layout = bus.layout := by
  cases hlocate : bus.locate c.address c.size with
  | error e => rw [perform_of_refused hlocate]
  | ok found => rw [perform_of_located hlocate, layout_setDevice]

/-- Accesses leave all regions where they are. -/
theorem layout_after (bus : Bus δ) (cs : List Call) : (bus.after cs).layout = bus.layout := by
  induction cs generalizing bus with
  | nil => rfl
  | cons c cs ih => exact (ih (bus.perform c).state).trans (bus.layout_perform c)

theorem Laid.after (h : bus.Laid) (cs : List Call) : (bus.after cs).Laid := by
  induction cs generalizing bus with
  | nil => exact h
  | cons c cs ih => exact ih (h.perform c)

/-- The regions of a bus lie where some devices asked for them, whatever the devices are by now. -/
structure LaidFor (bus : Bus δ) (ps : List (UInt64 × δ)) : Prop where
  laid : bus.Laid
  layout : bus.layout.Perm (ps.map fun p => (p.1, Device.size p.2))

theorem Carries.laidFor_after (h : bus.Carries ps) (cs : List Call) :
    (bus.after cs).LaidFor ps := by
  refine ⟨h.laid.after cs, ?_⟩
  have hlayout := h.regions.map fun r => (r.base, r.size)
  rw [List.map_map] at hlayout
  rwa [layout_after]

namespace LaidFor

variable {c : Call}

theorem exists_region (h : bus.LaidFor ps) (hp : p ∈ ps) :
    ∃ device, ⟨p.1, Device.size p.2, device⟩ ∈ bus.regions := by
  have hmem : (p.1, Device.size p.2) ∈ bus.layout :=
    h.layout.mem_iff.mpr (List.mem_map.mpr ⟨p, hp, rfl⟩)
  obtain ⟨⟨base, size, device⟩, hr, heq⟩ := List.mem_map.mp hmem
  cases heq
  exact ⟨device, hr⟩

theorem exists_requested (h : bus.LaidFor ps) {r : Region δ} (hr : r ∈ bus.regions) :
    ∃ p ∈ ps, p.1 = r.base ∧ Device.size p.2 = r.size := by
  have hmem : (r.base, r.size) ∈ bus.layout := List.mem_map.mpr ⟨r, hr, rfl⟩
  obtain ⟨p, hp, heq⟩ := List.mem_map.mp (h.layout.mem_iff.mp hmem)
  exact ⟨p, hp, congrArg Prod.fst heq, congrArg Prod.snd heq⟩

/-- An access that lies in the window of a device goes to the region there. -/
theorem perform_of_liesIn (h : bus.LaidFor ps) (hp : p ∈ ps) (hc : c.LiesIn p) :
    ∃ device w, ⟨p.1, Device.size p.2, device⟩ ∈ bus.regions ∧ w.bytes = c.size.toNat ∧
      bus.perform c =
        let o := Device.access device (c.address - p.1) w c.operation
        ⟨o.answer, bus.setDevice p.1 o.state, callEvent c :: o.log⟩ := by
  obtain ⟨device, hr⟩ := h.exists_region hp
  have hroutes : bus.Routes c ⟨p.1, Device.size p.2, device⟩ :=
    ⟨hc.size, hc.aligned, hr, hc.starts, hc.ends⟩
  obtain ⟨w, hw, hlocate⟩ := h.laid.locate_of_routes hroutes
  exact ⟨device, w, hr, hw, perform_of_located hlocate⟩

theorem perform_of_not_liesIn (h : bus.LaidFor ps) (hnone : ∀ p ∈ ps, ¬c.LiesIn p)
    (hwraps : ¬(c.address.toNat + c.size.toNat = UInt64.size ∧
      ∃ p ∈ ps, p.1 = 0 ∧ c.address.toNat < (Device.size p.2).toNat)) :
    bus.perform c = ⟨.error c.refusal, bus, [callEvent c]⟩ := by
  apply perform_of_refused
  apply h.laid.locate_of_not_routes
  · rintro r ⟨hsize, haligned, hr, hstarts, hends⟩
    obtain ⟨p, hp, hbase, hwindow⟩ := h.exists_requested hr
    rw [← hbase] at hstarts hends
    rw [← hwindow] at hends
    exact hnone p hp ⟨hsize, haligned, hstarts, hends⟩
  · rintro ⟨htop, r, hr, hzero, hinside⟩
    obtain ⟨p, hp, hbase, hwindow⟩ := h.exists_requested hr
    rw [hzero, UInt64.toNat_zero, Nat.zero_add, ← hwindow] at hinside
    exact hwraps ⟨htop, p, hp, hbase.trans hzero, hinside⟩

end LaidFor

/-! ### The order of the devices -/

/-- Devices that are not empty, end inside the address space and share no address can be attached in any
order. None is refused, the regions are those of the devices and no others, and the bus is the same
as for the order given. However it has been used since, an access that lies in the window of a device
goes to the device there, by its offset, and changes no other. An access that lies in none is refused
for its size, else its alignment, else its address, and changes nothing. This leaves out the access
that ends where the address space does, in a window that starts at zero. -/
theorem assembled_perm (hcompatible : Compatible ps) (hperm : qs.Perm ps) :
    let bus := empty.assembled qs
    (∀ o ∈ empty.attachAll qs, o.answer = .ok ()) ∧
      bus.regions.Perm (ps.map Region.requested) ∧
      bus = empty.assembled ps ∧
      ∀ (cs : List Call) (c : Call),
        let used := bus.after cs
        ¬(c.address.toNat + c.size.toNat = UInt64.size ∧
            ∃ p ∈ ps, p.1 = 0 ∧ c.address.toNat < (Device.size p.2).toNat) →
          (∀ p ∈ ps, c.LiesIn p →
            ∃ device w, ⟨p.1, Device.size p.2, device⟩ ∈ used.regions ∧ w.bytes = c.size.toNat ∧
              used.perform c =
                let o := Device.access device (c.address - p.1) w c.operation
                ⟨o.answer, used.setDevice p.1 o.state, callEvent c :: o.log⟩) ∧
          ((∀ p ∈ ps, ¬c.LiesIn p) →
            used.perform c = ⟨.error c.refusal, used, [callEvent c]⟩) := by
  intro bus
  have hassembles {rs : List (UInt64 × δ)} (hrs : Compatible rs) :
      (∀ o ∈ empty.attachAll rs, o.answer = .ok ()) ∧ (empty.assembled rs).Carries rs := by
    rw [← List.append_nil rs] at hrs
    have hall := Carries.empty.attachAll hrs
    rwa [List.append_nil] at hall
  obtain ⟨hok, hqs⟩ := hassembles (hcompatible.of_perm hperm)
  obtain ⟨-, hps⟩ := hassembles hcompatible
  have hcarries : bus.Carries ps := hqs.of_perm hperm.symm
  refine ⟨hok, hcarries.regions, hcarries.unique hps, fun cs c => ?_⟩
  intro used hwraps
  have hlaid : used.LaidFor ps := hcarries.laidFor_after cs
  exact ⟨fun p hp hc => hlaid.perform_of_liesIn hp hc,
    fun hnone => hlaid.perform_of_not_liesIn hnone hwraps⟩

/-- Three probes without a gap between them, the lowest one attached last. The bus is the same as if it
had been the first; after a write to it a read finds the probe behind it. -/
theorem assembled_perm_probes :
    let probe (size : UInt64) : Probe := { size := size, pattern := 0x30, refusal := none }
    let ps : List (UInt64 × Probe) := [(0, probe 0x10), (0x10, probe 8), (0x18, probe 4)]
    let qs : List (UInt64 × Probe) := [(0x10, probe 8), (0x18, probe 4), (0, probe 0x10)]
    let bus := empty.assembled qs
    Compatible ps ∧ qs.Perm ps ∧ (∀ o ∈ empty.attachAll qs, o.answer = .ok ()) ∧
      bus = empty.assembled ps ∧
      ((bus.after [.write 0xC 4 7]).perform (.read 0x14 4)).answer = .ok (some 0x34) ∧
      ((bus.after [.write 0xC 4 7]).perform (.read 0x1C 4)).answer = .error (.unmapped 0x1C) := by
  intro probe ps qs bus
  have hperm : qs.Perm ps := by decide
  have hcompatible : Compatible ps := by
    refine ⟨by decide, by decide, ?_⟩
    simp only [ps, List.pairwise_cons, List.mem_cons, List.not_mem_nil, or_false, forall_eq_or_imp,
      forall_eq, List.Pairwise.nil, and_true, false_imp_iff, implies_true]
    refine ⟨⟨?_, ?_⟩, ?_⟩
    all_goals
      rintro address ⟨⟨-, hhigh⟩, hlow, -⟩
      exact absurd (Nat.lt_of_le_of_lt hlow hhigh) (by decide)
  obtain ⟨hok, -, hsame, hcalls⟩ := assembled_perm hcompatible hperm
  have hbus : bus = ⟨[⟨0, 0x10, probe 0x10⟩, ⟨0x10, 8, probe 8⟩, ⟨0x18, 4, probe 4⟩]⟩ := rfl
  have hregions : (bus.after [.write 0xC 4 7]).regions =
      [⟨0, 0x10, { probe 0x10 with seen := [⟨0xC, .word, .write 7⟩] }⟩, ⟨0x10, 8, probe 8⟩,
        ⟨0x18, 4, probe 4⟩] := by
    rw [hbus]
    simp only [probe]
    cbv
  refine ⟨hcompatible, hperm, hok, hsame, ?_, ?_⟩
  · obtain ⟨hroutes, -⟩ := hcalls [.write 0xC 4 7] (.read 0x14 4) fun h => absurd h.1 (by decide)
    obtain ⟨device, w, hmem, -, hperform⟩ := hroutes (0x10, probe 8) (by simp [ps])
      ⟨by decide, by decide, by decide, by decide⟩
    rw [hregions] at hmem
    obtain ⟨-, rfl⟩ : Device.size (probe 8) = 8 ∧ device = probe 8 := by simpa using hmem
    have hanswer : (0x14 - 0x10) ^^^ (probe 8).pattern = 0x34 := by decide
    refine (congrArg Outcome.answer hperform).trans ?_
    exact congrArg (fun value => (.ok (some value) : Answer)) hanswer
  · obtain ⟨-, hrefused⟩ := hcalls [.write 0xC 4 7] (.read 0x1C 4) fun h => absurd h.1 (by decide)
    rw [hrefused]
    · rfl
    · intro p hp hc
      simp only [ps, List.mem_cons, List.not_mem_nil, or_false] at hp
      obtain rfl | rfl | rfl := hp <;> exact absurd hc.ends (by decide)

end Bus

end RemoteRegisters
