import RemoteRegisters.Device.Probe
import RemoteRegisters.Proofs.Bridge.Accounting
import RemoteRegisters.Proofs.Bus.Routing

/-!
# Bridges on a bus

A bus checks an access against the region of a bridge, and the bridge checks it
again against its own window. The two checks agree at every base: what the bus
lets through to a bridge the bridge never refuses, so that all errors for
addresses in its window come from the bus, before anything is sent
(`Bus.Shared.perform_hosted`).

A bridge on a bus may have other users besides the bus. Between two accesses its
state is therefore anything at all, while its region stays what it was.

## Main definitions

- `Call.within` — an access as the device at a base sees it
- `Bus.Shared` — the buses that come about while the bridges on them have other users
- `Bus.GoesTo` — the bus takes an access to the device at a base
-/

namespace RemoteRegisters

/-- The access as a device sees it that is mapped at a base: by its offset. -/
def Call.within (c : Call) (base : UInt64) : Call :=
  ⟨c.address - base, c.size, c.operation⟩

/-- A bridge that is accessed as a device is accessed as itself. -/
theorem Bridge.access_eq_perform {σ : Type} [ByteStream σ] (b : Bridge σ) {c : Call}
    {base : UInt64} {w : Width} (hw : Width.ofSize? c.size = some w) :
    Device.access b (c.address - base) w c.operation = b.perform (c.within base) := by
  have hsize : UInt64.ofNat w.bytes = c.size := by
    apply UInt64.toNat_inj.mp
    rw [Width.ofSize?_eq_some_iff.mp hw]
    cases w <;> rfl
  change b.perform ⟨c.address - base, UInt64.ofNat w.bytes, c.operation⟩ = _
  rw [hsize]
  rfl

namespace Bus

section Regions

variable {δ : Type} {bus : Bus δ} {base : UInt64} {device : δ}

/-- The device at a base is that of the one region that starts there. -/
theorem exists_region_of_deviceAt? (h : bus.deviceAt? base = some device) :
    ∃ r ∈ bus.regions, r.base = base ∧ r.device = device := by
  obtain ⟨r, hr, hdevice⟩ := Option.map_eq_some_iff.mp h
  exact ⟨r, List.mem_of_find?_eq_some hr, by simpa using List.find?_some hr, hdevice⟩

/-- A new state of the device at one base leaves the devices at all others alone. -/
theorem deviceAt?_setDevice (bus : Bus δ) (base base' : UInt64) (device : δ) :
    (bus.setDevice base device).deviceAt? base' =
      if base' = base then (bus.deviceAt? base').map fun _ => device else bus.deviceAt? base' := by
  have hkeep (r : Region δ) :
      (if r.base = base then { r with device := device } else r).base = r.base := by
    split <;> rfl
  simp only [deviceAt?, setDevice, List.find?_map, Function.comp_def, hkeep]
  cases hfind : bus.regions.find? (·.base == base') with
  | none => simp
  | some r =>
    have hbase : r.base = base' := by simpa using List.find?_some hfind
    simp only [Option.map_some, hbase]
    split <;> rfl

theorem Laid.eq_of_base_eq (h : bus.Laid) {r s : Region δ} (hr : r ∈ bus.regions)
    (hs : s ∈ bus.regions) (hbase : r.base = s.base) : r = s :=
  h.ascending.eq_of_key_eq hr hs (congrArg UInt64.toNat hbase)

/-- The bus takes an access to the device that is mapped at a base. -/
def GoesTo (bus : Bus δ) (c : Call) (base : UInt64) : Prop :=
  ∃ r w, bus.locate c.address c.size = .ok (r, w) ∧ r.base = base

end Regions

variable {σ δ : Type} {bus : Bus (Bridge σ ⊕ δ)}

/-! ### The windows of bridges -/

/-- The regions lie apart, and that of a bridge is as long as the window of a bridge. -/
structure Hosting (bus : Bus (Bridge σ ⊕ δ)) : Prop where
  laid : bus.Laid
  size_eq : ∀ r ∈ bus.regions, ∀ b, r.device = .inl b → r.size = windowSize

/-- The region of a bridge that is mapped at a base. -/
theorem Hosting.exists_region (h : bus.Hosting) {base : UInt64} {b : Bridge σ}
    (hat : bus.deviceAt? base = some (.inl b)) :
    ∃ r ∈ bus.regions, r.base = base ∧ r.device = .inl b ∧ r.size = windowSize := by
  obtain ⟨r, hr, hbase, hdevice⟩ := exists_region_of_deviceAt? hat
  exact ⟨r, hr, hbase, hdevice, h.size_eq r hr b hdevice⟩

/-- A device gets another state; a bridge that it is then it was before. -/
theorem Hosting.setDevice (h : bus.Hosting) {r : Region (Bridge σ ⊕ δ)} (hr : r ∈ bus.regions)
    {device : Bridge σ ⊕ δ} (hkind : ∀ b', device = .inl b' → ∃ b, r.device = .inl b) :
    (bus.setDevice r.base device).Hosting where
  laid := h.laid.setDevice r.base device
  size_eq s hs b' hb' := by
    obtain ⟨old, hold, rfl⟩ := List.mem_map.mp hs
    by_cases hbase : old.base = r.base
    · obtain rfl := h.laid.eq_of_base_eq hold hr hbase
      rw [if_pos rfl] at hb' ⊢
      obtain ⟨b, hb⟩ := hkind b' hb'
      exact h.size_eq old hold b hb
    · rw [if_neg hbase] at hb' ⊢
      exact h.size_eq old hold b' hb'

section Window

variable {base : UInt64} {b : Bridge σ} {c : Call}

/-- The bus takes to a bridge those accesses that lie within its window, by absolute addresses. -/
theorem Hosting.goesTo_iff (h : bus.Hosting) (hat : bus.deviceAt? base = some (.inl b)) :
    bus.GoesTo c base ↔
      (c.size = 1 ∨ c.size = 2 ∨ c.size = 4) ∧ c.size.toNat ∣ c.address.toNat ∧
        base.toNat ≤ c.address.toNat ∧ c.address.toNat + c.size.toNat ≤ base.toNat + 0x1000 := by
  obtain ⟨r, hr, rfl, -, hsize⟩ := h.exists_region hat
  constructor
  · rintro ⟨s, w, hlocate, hbase⟩
    obtain rfl := h.laid.eq_of_base_eq (h.laid.mem_of_locate hlocate) hr hbase
    obtain ⟨hstarts, hinside⟩ := h.laid.holds_of_locate hlocate
    obtain ⟨hw, haligned, -, hbound⟩ := locate_eq_ok_iff.mp hlocate
    have hle : s.base ≤ c.address := UInt64.le_iff_toNat_le.mpr hstarts
    have hbytes := Width.ofSize?_eq_some_iff.mp hw
    have hfour := w.bytes_le_four
    rw [UInt64.lt_iff_toNat_lt, UInt64.toNat_add, UInt64.toNat_sub_of_le _ _ hle, hsize] at hbound
    unfold Region.limit at hinside
    unfold Region.key at hstarts
    rw [hsize] at hinside
    have hwindow : windowSize.toNat = 0x1000 := rfl
    exact ⟨Call.size_cases_iff.mpr ⟨w, hw⟩, haligned, hstarts, by omega⟩
  · rintro ⟨hcases, haligned, hstarts, hends⟩
    have hroutes : bus.Routes c r := ⟨hcases, haligned, hr, hstarts, by rwa [hsize]⟩
    obtain ⟨w, -, hlocate⟩ := h.laid.locate_of_routes hroutes
    exact ⟨r, w, hlocate, rfl⟩

/-- Whatever is taken to a bridge lies in its window. -/
theorem Hosting.valid_within (h : bus.Hosting) (hat : bus.deviceAt? base = some (.inl b))
    (hgoes : bus.GoesTo c base) :
    (c.within base).Valid ∧ (c.within base).address.toNat = c.address.toNat - base.toNat := by
  obtain ⟨hcases, -, hstarts, hends⟩ := (h.goesTo_iff hat).mp hgoes
  have hoffset : (c.within base).address.toNat = c.address.toNat - base.toNat :=
    UInt64.toNat_sub_of_le _ _ (UInt64.le_iff_toNat_le.mpr hstarts)
  refine ⟨⟨hcases, ?_⟩, hoffset⟩
  rw [hoffset]
  change _ + c.size.toNat ≤ _
  omega

/-- An address in the window of a bridge belongs to no other device: an access there that is not
taken to the bridge is refused. -/
theorem Hosting.locate_of_not_goesTo (h : bus.Hosting) (hat : bus.deviceAt? base = some (.inl b))
    (hlow : base.toNat ≤ c.address.toNat) (hhigh : c.address.toNat < base.toNat + 0x1000)
    (hgoes : ¬bus.GoesTo c base) : bus.locate c.address c.size = .error c.refusal := by
  obtain ⟨r, hr, rfl, -, hsize⟩ := h.exists_region hat
  cases hlocate : bus.locate c.address c.size with
  | error e => rw [eq_refusal_of_locate hlocate]
  | ok found =>
    obtain ⟨s, w⟩ := found
    have hholds : r.Holds c.address.toNat := by
      refine ⟨hlow, ?_⟩
      unfold Region.limit
      rw [hsize]
      exact hhigh
    obtain rfl := h.laid.eq_of_holds (h.laid.mem_of_locate hlocate) hr
      (h.laid.holds_of_locate hlocate) hholds
    exact absurd ⟨s, w, hlocate, rfl⟩ hgoes

end Window

variable [ByteStream σ] [Device δ]

/-! ### Buses with bridges on them -/

/-- The buses that come about from the empty one by attaching devices, successfully or not, and by
accesses, while the bridges on them have other users.

A device is mapped here with its state. One bridge that is mapped at two bases is therefore two devices
in the same state, and an access through one base is, for the other base, a use by somebody else: it is
followed by the step `elsewhere` there (`Shared.perform_aliased`). -/
inductive Shared : Bus (Bridge σ ⊕ δ) → Prop where
  | empty : Shared .empty
  | attach {bus : Bus (Bridge σ ⊕ δ)} (h : Shared bus) (base : UInt64) (device : Bridge σ ⊕ δ) :
      Shared (bus.attach base device).state
  | perform {bus : Bus (Bridge σ ⊕ δ)} (h : Shared bus) (c : Call) : Shared (bus.perform c).state
  /-- Somebody else uses the bridge at a base and leaves it in some other state. -/
  | elsewhere {bus : Bus (Bridge σ ⊕ δ)} (h : Shared bus) {base : UInt64} {b : Bridge σ}
      (hat : bus.deviceAt? base = some (.inl b)) (b' : Bridge σ) :
      Shared (bus.setDevice base (.inl b'))

/-- Without other users a bus comes about all the same. -/
theorem Reachable.shared (h : bus.Reachable) : bus.Shared := by
  induction h with
  | empty => exact .empty
  | attach _ base device ih => exact ih.attach base device
  | perform _ c ih => exact ih.perform c

theorem Hosting.attach (h : bus.Hosting) (base : UInt64) (device : Bridge σ ⊕ δ) :
    (bus.attach base device).state.Hosting where
  laid := h.laid.attach base device
  size_eq r hr b hb := by
    have hattachment := bus.attachment_attach base device
    generalize bus.attach base device = o at hattachment hr
    cases hattachment with
    | outside => exact h.size_eq r hr b hb
    | obstructed => exact h.size_eq r hr b hb
    | mapped =>
      obtain rfl | ⟨hold, -⟩ := h.laid.ascending.mem_insert_iff.mp hr
      · obtain rfl : device = .inl b := hb
        rfl
      · exact h.size_eq r hold b hb

theorem Hosting.perform (h : bus.Hosting) (c : Call) : (bus.perform c).state.Hosting := by
  cases hlocate : bus.locate c.address c.size with
  | error e =>
    rw [perform_of_refused hlocate]
    exact h
  | ok found =>
    obtain ⟨r, w⟩ := found
    rw [perform_of_located hlocate]
    refine h.setDevice (h.laid.mem_of_locate hlocate) fun b' hb' => ?_
    cases hdevice : r.device with
    | inl b => exact ⟨b, rfl⟩
    | inr d =>
      rw [hdevice] at hb'
      cases hb'

theorem Shared.hosting (h : bus.Shared) : bus.Hosting := by
  induction h with
  | empty => exact ⟨laid_empty, fun _ hr => (List.not_mem_nil hr).elim⟩
  | attach _ base device ih => exact ih.attach base device
  | perform _ c ih => exact ih.perform c
  | elsewhere _ hat b' ih =>
    obtain ⟨r, hr, rfl, hdevice⟩ := exists_region_of_deviceAt? hat
    exact ih.setDevice hr fun _ _ => ⟨_, hdevice⟩

/-! ### One access -/

variable {base : UInt64} {b : Bridge σ} {c : Call}

/-- An access that is taken to a bridge is made on the bridge, with its offset into the window. -/
theorem Hosting.perform_of_goesTo (h : bus.Hosting) (hat : bus.deviceAt? base = some (.inl b))
    (hgoes : bus.GoesTo c base) :
    bus.perform c =
      ⟨(b.perform (c.within base)).answer,
        bus.setDevice base (.inl (b.perform (c.within base)).state),
        callEvent c :: (b.perform (c.within base)).log⟩ := by
  obtain ⟨r, hr, rfl, hdevice, -⟩ := h.exists_region hat
  obtain ⟨s, w, hlocate, hbase⟩ := hgoes
  obtain rfl := h.laid.eq_of_base_eq (h.laid.mem_of_locate hlocate) hr hbase
  obtain ⟨hw, -⟩ := locate_eq_ok_iff.mp hlocate
  rw [perform_of_located hlocate, hdevice, ← b.access_eq_perform hw]
  rfl

/-- An access through one of the two bases of a bridge leaves the bridge in one state at both, when the
other base has followed. -/
theorem Shared.perform_aliased (h : bus.Shared) {base' : UInt64} (hne : base' ≠ base)
    (hat : bus.deviceAt? base = some (.inl b)) (hat' : bus.deviceAt? base' = some (.inl b))
    (hgoes : bus.GoesTo c base) :
    let near := (b.perform (c.within base)).state
    let next := (bus.perform c).state.setDevice base' (.inl near)
    next.Shared ∧ next.deviceAt? base = some (.inl near) ∧
      next.deviceAt? base' = some (.inl near) := by
  intro near next
  have hstate : (bus.perform c).state = bus.setDevice base (.inl near) :=
    congrArg Outcome.state (h.hosting.perform_of_goesTo hat hgoes)
  have hthere : (bus.perform c).state.deviceAt? base' = some (.inl b) := by
    rw [hstate, deviceAt?_setDevice, if_neg hne, hat']
  refine ⟨(h.perform c).elsewhere hthere near, ?_, ?_⟩
  · rw [deviceAt?_setDevice, if_neg hne.symm, hstate, deviceAt?_setDevice, if_pos rfl, hat]
    rfl
  · rw [deviceAt?_setDevice, if_pos rfl, hthere]
    rfl

/-- An access that is not taken to a bridge leaves it as it is. -/
theorem deviceAt?_of_not_goesTo (hgoes : ¬bus.GoesTo c base) :
    (bus.perform c).state.deviceAt? base = bus.deviceAt? base := by
  cases hlocate : bus.locate c.address c.size with
  | error e => rw [perform_of_refused hlocate]
  | ok found =>
    obtain ⟨r, w⟩ := found
    rw [perform_of_located hlocate, deviceAt?_setDevice, if_neg]
    rintro rfl
    exact hgoes ⟨r, w, hlocate, rfl⟩

/-- A bridge that the window has let an access through to does not warn of it. -/
theorem outsideWindow_notMem_perform {b : Bridge σ} {c : Call} (h : c.Valid) (offset : UInt64) :
    Event.outsideWindow offset ∉ (b.perform c).log := by
  obtain ⟨-, -, ⟨event, hlog, hlevel⟩, -⟩ := Bridge.settles_perform (b := b) h
  rw [hlog, List.mem_singleton]
  rintro rfl
  cases hbroken : (b.perform c).state.broken <;> rw [hbroken] at hlevel <;> cases hlevel

/-- An access on a bus with a bridge at some base, in whatever state the bridge is. The access goes to
the bridge exactly if it is one of 1, 2 or 4 bytes, at a multiple of its size, that lies in the window
by absolute addresses. Then it succeeds, with the answer and the effect of the same access on the
bridge itself, by its offset, which the bridge neither refuses nor warns of. Else the bridge stays as
it is. So an error for an address in the window is the bus's own, for the access as it was made, and
nothing has been touched. -/
theorem Shared.perform_hosted (h : bus.Shared) {base : UInt64} {b : Bridge σ}
    (hat : bus.deviceAt? base = some (.inl b)) (c : Call) :
    let o := bus.perform c
    let near := b.perform (c.within base)
    (bus.GoesTo c base ↔
        (c.size = 1 ∨ c.size = 2 ∨ c.size = 4) ∧ c.size.toNat ∣ c.address.toNat ∧
          base.toNat ≤ c.address.toNat ∧
          c.address.toNat + c.size.toNat ≤ base.toNat + 0x1000) ∧
      (bus.GoesTo c base →
        (∃ reply, o.answer = .ok reply) ∧ o.answer = near.answer ∧
          o.state.deviceAt? base = some (.inl near.state) ∧ o.log = callEvent c :: near.log ∧
          (c.within base).Valid ∧
          (c.within base).address.toNat = c.address.toNat - base.toNat ∧
          ∀ offset, Event.outsideWindow offset ∉ near.log) ∧
      (¬bus.GoesTo c base → o.state.deviceAt? base = some (.inl b)) ∧
      (base.toNat ≤ c.address.toNat → c.address.toNat < base.toNat + 0x1000 →
        ∀ e, o.answer = .error e → e = c.refusal ∧ o.state = bus ∧ o.log = [callEvent c]) := by
  intro o near
  have hhosting := h.hosting
  refine ⟨hhosting.goesTo_iff hat, fun hgoes => ?_, fun hgoes => ?_, fun hlow hhigh e herror => ?_⟩
  · obtain ⟨hvalid, hoffset⟩ := hhosting.valid_within hat hgoes
    have hperform : o = _ := hhosting.perform_of_goesTo hat hgoes
    refine ⟨?_, ?_, ?_, ?_, hvalid, hoffset, outsideWindow_notMem_perform hvalid⟩
    · rw [hperform]
      exact (Bridge.settles_perform hvalid).answered
    · rw [hperform]
    · rw [hperform, deviceAt?_setDevice, if_pos rfl, hat]
      rfl
    · rw [hperform]
  · exact (deviceAt?_of_not_goesTo hgoes).trans hat
  · by_cases hgoes : bus.GoesTo c base
    · -- what goes to the bridge succeeds
      have hperform : o = _ := hhosting.perform_of_goesTo hat hgoes
      obtain ⟨reply, hreply⟩ :=
        (Bridge.settles_perform (b := b) (hhosting.valid_within hat hgoes).1).answered
      rw [hperform] at herror
      cases herror.symm.trans hreply
    · have hperform : o = _ :=
        perform_of_refused (hhosting.locate_of_not_goesTo hat hlow hhigh hgoes)
      rw [hperform] at herror ⊢
      cases herror
      exact ⟨rfl, rfl, rfl⟩

/-- A bridge whose stream has ended, at a base that no access is aligned to, behind a probe. The first
word in its window that is aligned goes to it, with offset 2, and is lost; the word at the base goes
nowhere. -/
theorem perform_hosted_closed_stream :
    let probe : Probe := { size := 0x10, pattern := 0, refusal := none }
    let b : Bridge Script := { stream := { reads := [], writes := [], flushes := [] }, hooked := true }
    let bus : Bus (Bridge Script ⊕ Probe) :=
      ((empty.attach 0x10 (.inr probe)).state.attach 0x22 (.inl b)).state
    bus.Shared ∧ bus.deviceAt? 0x22 = some (.inl b) ∧
      (bus.perform (.read 0x24 4)).answer = .ok (some 0) ∧
      (bus.perform (.read 0x24 4)).state.deviceAt? 0x22 =
        some (.inl (b.perform (.read 2 4)).state) ∧
      (bus.perform (.read 0x22 4)).answer = .error (.misaligned 0x22 4) ∧
      (bus.perform (.read 0x22 4)).state = bus := by
  intro probe b bus
  have hshared : bus.Shared := (Shared.empty.attach _ _).attach _ _
  have hat : bus.deviceAt? 0x22 = some (.inl b) := by
    simp only [bus, b, probe]
    cbv
  obtain ⟨hgoes, hrouted, -⟩ := hshared.perform_hosted hat (.read 0x24 4)
  obtain ⟨-, hanswer, hstate, -⟩ := hrouted (hgoes.mpr (by decide))
  obtain ⟨-, -, -, hrefused⟩ := hshared.perform_hosted hat (.read 0x22 4)
  have hmisaligned : (bus.perform (.read 0x22 4)).answer = .error (.misaligned 0x22 4) := rfl
  refine ⟨hshared, hat, hanswer.trans ?_, hstate, hmisaligned, ?_⟩
  · simp only [b]
    cbv
  · exact (hrefused (by decide) (by decide) _ hmisaligned).2.1

end Bus

end RemoteRegisters
