import RemoteRegisters.Demo
import RemoteRegisters.Proofs.Bridge.Accounting
import RemoteRegisters.Proofs.Bus.Hosting

/-!
# The demo comes to an end

On an address space of its own the demo drives its bridge as if nothing were
between them (`Demo.start_eq_drive`). Nothing counts how often it reads the
status. It comes to an end all the same where the stream can deliver only so many
bytes (`Demo.over_of_rank_le`): each status that is not ready takes four bytes
out of the supply, or the access was lost, and then the demo gives up.

## Main definitions

- `Demo.drive` — the demo on a bridge, with no address space between them
- `Demo.Stage.Over` — the demo is done or has failed
- `Demo.rank` — the accesses that the demo still makes at most
-/

namespace RemoteRegisters.Demo

namespace Stage

/-- The demo makes no more accesses. -/
def Over (stage : Stage) : Prop :=
  stage = .done ∨ ∃ trouble, stage = .failed trouble

theorem over_iff {stage : Stage} (base : UInt64) : stage.Over ↔ stage.call? base = none := by
  cases stage <;> simp [Over, call?]

/-- An access of the demo at its offset. -/
theorem call?_within (stage : Stage) (base : UInt64) :
    (stage.call? base).map (·.within base) = stage.call? 0 := by
  have hoffset (offset : UInt64) : base + offset - base = 0 + offset := by
    rw [UInt64.add_comm, UInt64.add_sub_cancel, UInt64.zero_add]
  cases stage <;> simp [call?, Call.within, Call.read, Call.write, hoffset]

/-- The accesses of the demo lie in the window of the device, at multiples of their sizes. -/
theorem routed_of_call? {stage : Stage} {base : UInt64} {c : Call} (hc : stage.call? base = some c)
    (haligned : 4 ∣ base.toNat) (hfits : base.toNat + 0x1000 < UInt64.size) :
    (c.size = 1 ∨ c.size = 2 ∨ c.size = 4) ∧ c.size.toNat ∣ c.address.toNat ∧
      base.toNat ≤ c.address.toNat ∧ c.address.toNat + c.size.toNat ≤ base.toNat + 0x1000 := by
  have haddress {offset : UInt32} (h : offset.toNat < 0x1000) :
      (base + offset.toUInt64).toNat = base.toNat + offset.toNat := by
    rw [UInt64.toNat_add, UInt32.toNat_toUInt64]
    exact Nat.mod_eq_of_lt (Nat.lt_trans (Nat.add_lt_add_left h _) hfits)
  have hword (offset : UInt32) (h : offset.toNat + 4 ≤ 0x1000) (hoffset : 4 ∣ offset.toNat) :
      4 ∣ (base + offset.toUInt64).toNat ∧ base.toNat ≤ (base + offset.toUInt64).toNat ∧
        (base + offset.toUInt64).toNat + 4 ≤ base.toNat + 0x1000 := by
    rw [haddress (by omega)]
    exact ⟨Nat.dvd_add haligned hoffset, by omega⟩
  cases stage with
  | enabling message =>
    cases hc
    exact ⟨.inr (.inr rfl), hword RegisterMap.control (by decide) (by decide)⟩
  | polling next later =>
    cases hc
    exact ⟨.inr (.inr rfl), hword RegisterMap.status (by decide) (by decide)⟩
  | sending next later =>
    cases hc
    obtain ⟨-, hstarts, hends⟩ := hword RegisterMap.txData (by decide) (by decide)
    refine ⟨.inl rfl, Nat.one_dvd _, hstarts, Nat.le_trans (Nat.add_le_add_left ?_ _) hends⟩
    exact Nat.le_add_left 1 3
  | done => cases hc
  | failed trouble => cases hc

end Stage

section Address

variable {σ : Type}

/-- An address space with a bridge in it and nothing else. -/
def alone (base : UInt64) (b : Bridge σ) : Bus (Bridge σ) :=
  ⟨[⟨base, windowSize, b⟩]⟩

theorem deviceAt?_alone (base : UInt64) (b : Bridge σ) :
    (alone base b).deviceAt? base = some b := by
  simp [Bus.deviceAt?, alone]

theorem laid_alone {base : UInt64} (hfits : base.toNat + 0x1000 < UInt64.size) (b : Bridge σ) :
    (alone base b).Laid where
  ascending := List.pairwise_singleton _ _
  fits r hr := by
    cases List.mem_singleton.mp hr
    exact hfits
  apart r hr s hs hlt := by
    cases List.mem_singleton.mp hr
    cases List.mem_singleton.mp hs
    exact absurd hlt (Nat.lt_irrefl _)

variable [ByteStream σ]

/-- The demo on a bridge, with no address space between them. -/
def drive : (accesses : Nat) → Stage → Bridge σ → Stage × Bridge σ
  | 0, stage, b => (stage, b)
  | accesses + 1, stage, b =>
      match stage.call? 0 with
      | none => (stage, b)
      | some c =>
          let o := b.perform c
          drive accesses (stage.resume o.answer o.state.faults) o.state

theorem attach_alone {base : UInt64} (hfits : base.toNat + 0x1000 < UInt64.size) (b : Bridge σ) :
    (Bus.empty.attach base b).answer = .ok () ∧ (Bus.empty.attach base b).state = alone base b := by
  have hsum : Address.checkedAdd? base (Device.size b) = some (base + windowSize) :=
    Address.checkedAdd?_eq_some_iff.mpr ⟨hfits, rfl⟩
  unfold Bus.attach
  dsimp only
  rw [hsum]
  exact ⟨rfl, rfl⟩

/-- An access of the demo over an address space of its own is one on the bridge. -/
theorem perform_alone {base : UInt64} {stage : Stage} {c : Call} (hc : stage.call? base = some c)
    (haligned : 4 ∣ base.toNat) (hfits : base.toNat + 0x1000 < UInt64.size) (b : Bridge σ) :
    ((alone base b).perform c).answer = (b.perform (c.within base)).answer ∧
      ((alone base b).perform c).state = alone base (b.perform (c.within base)).state := by
  obtain ⟨hcases, hdvd, hstarts, hends⟩ := Stage.routed_of_call? hc haligned hfits
  have hroutes : (alone base b).Routes c ⟨base, windowSize, b⟩ :=
    ⟨hcases, hdvd, List.mem_singleton.mpr rfl, hstarts, hends⟩
  obtain ⟨w, hw, hlocate⟩ := (laid_alone hfits b).locate_of_routes hroutes
  rw [Bus.perform_of_located hlocate]
  dsimp only
  rw [b.access_eq_perform (Width.ofSize?_eq_some_iff.mpr hw.symm)]
  refine ⟨rfl, ?_⟩
  simp only [Bus.setDevice, alone, List.map_cons, List.map_nil, if_true]

theorem run_alone {base : UInt64} (haligned : 4 ∣ base.toNat)
    (hfits : base.toNat + 0x1000 < UInt64.size) (accesses : Nat) (stage : Stage) (b : Bridge σ) :
    run base accesses stage (alone base b) =
      ((drive accesses stage b).1, alone base (drive accesses stage b).2) := by
  induction accesses generalizing stage b with
  | zero => rfl
  | succ accesses ih =>
    rw [run, drive, ← stage.call?_within base]
    cases hc : stage.call? base with
    | none => rfl
    | some c =>
      obtain ⟨hanswer, hstate⟩ := perform_alone hc haligned hfits b
      simp only [Option.map_some, hanswer, hstate, faultsAt, deviceAt?_alone, Option.getD_some, ih]

/-- With an address space of its own the demo drives its bridge directly. -/
theorem start_eq_drive {base : UInt64} (haligned : 4 ∣ base.toNat)
    (hfits : base.toNat + 0x1000 < UInt64.size) (b : Bridge σ) (message : List UInt8)
    (accesses : Nat) : start base b message accesses = drive accesses (.enabling message) b := by
  obtain ⟨hanswer, hstate⟩ := attach_alone hfits b
  unfold start
  dsimp only
  rw [hanswer, hstate, run_alone haligned hfits]
  dsimp only
  rw [deviceAt?_alone]
  rfl

/-! ### The end of the demo -/

theorem drive_of_over {stage : Stage} (h : stage.Over) (accesses : Nat) (b : Bridge σ) :
    drive accesses stage b = (stage, b) := by
  cases accesses with
  | zero => rfl
  | succ accesses => simp only [drive, (Stage.over_iff 0).mp h]

theorem drive_of_call? {stage : Stage} {c : Call} (hc : stage.call? 0 = some c) (accesses : Nat)
    (b : Bridge σ) :
    drive (accesses + 1) stage b =
      drive accesses (stage.resume (b.perform c).answer (b.perform c).state.faults)
        (b.perform c).state := by
  simp only [drive, hc]

theorem drive_of_answer {stage : Stage} {c : Call} {b : Bridge σ} {answer : Answer} {faults : Nat}
    (hc : stage.call? 0 = some c) (hanswer : (b.perform c).answer = answer)
    (hfaults : (b.perform c).state.faults = faults) (accesses : Nat) :
    drive (accesses + 1) stage b =
      drive accesses (stage.resume answer faults) (b.perform c).state := by
  rw [drive_of_call? hc, hanswer, hfaults]

/-- A demo that is interrupted goes on where it was. -/
theorem drive_add (j k : Nat) (stage : Stage) (b : Bridge σ) :
    drive (j + k) stage b = drive k (drive j stage b).1 (drive j stage b).2 := by
  induction j generalizing stage b with
  | zero => rw [Nat.zero_add, drive]
  | succ j ih =>
    cases hc : stage.call? 0 with
    | none =>
      have hover := (Stage.over_iff 0).mpr hc
      simp only [drive_of_over hover]
    | some c => rw [Nat.add_right_comm, drive_of_call? hc, drive_of_call? hc, ih]

end Address

section Termination

variable {σ : Type} [FiniteStream σ]

/-- The accesses that the demo still makes at most on a stream with a given supply. -/
def rank (stage : Stage) (supply : Nat) : Nat :=
  match stage with
  | .enabling message => budget message supply
  | .polling _ later => 3 + 2 * later.length + supply
  | .sending _ later => 2 + 2 * later.length + supply
  | .done => 0
  | .failed _ => 0

theorem rank_proceed_le (faults : Nat) (message : List UInt8) (supply : Nat) :
    rank (.proceed faults message) supply ≤ 1 + 2 * message.length + supply := by
  cases message with
  | nil =>
    rw [Stage.proceed]
    split <;> exact Nat.zero_le _
  | cons next later =>
    rw [Stage.proceed, rank, List.length_cons]
    omega

theorem rank_pos {stage : Stage} {c : Call} (hc : stage.call? 0 = some c) (supply : Nat) :
    0 < rank stage supply := by
  cases stage <;> simp only [rank, budget] <;> first | omega | cases hc

theorem over_of_rank_eq_zero {stage : Stage} {supply : Nat} (h : rank stage supply = 0) :
    stage.Over := by
  refine (Stage.over_iff 0).mpr (Option.eq_none_iff_forall_ne_some.mpr fun c hc => ?_)
  exact Nat.ne_of_gt (rank_pos hc supply) h

/-- An answer brings the demo closer to its end, if a status that is not ready has taken something out
of the supply. -/
theorem rank_resume_lt {stage : Stage} {c : Call} (hc : stage.call? 0 = some c) (answer : Answer)
    (faults : Nat) {supply supply' : Nat} (hle : supply' ≤ supply)
    (htaken : ∀ reply, answer = .ok reply → c.operation = .read → faults = 0 → supply' < supply) :
    rank (stage.resume answer faults) supply' < rank stage supply := by
  cases answer with
  | error e => exact rank_pos hc supply
  | ok reply =>
    cases stage with
    | enabling message =>
      have := rank_proceed_le faults message supply'
      simp only [Stage.resume, rank, budget] at this ⊢
      omega
    | polling next later =>
      cases hc
      simp only [Stage.resume]
      split
      · simp only [rank]
        omega
      · split
        · have := htaken reply rfl rfl ‹faults = 0›
          simp only [rank]
          omega
        · have hpos : 0 < rank (.polling next later) supply := rank_pos rfl supply
          exact hpos
    | sending next later =>
      have := rank_proceed_le faults later supply'
      simp only [Stage.resume, rank] at this ⊢
      omega
    | done => cases hc
    | failed trouble => cases hc

theorem supply_exchange_le (c : Call) (a : Placement) (stream : σ) :
    FiniteStream.supply (c.exchange a stream).2 ≤ FiniteStream.supply stream := by
  have hsend := (Outgoing.ofBytes (c.request a).encode).supply_transmit_le stream
  unfold Call.exchange
  split <;> rename_i hsent <;> rw [← send, hsent] at hsend
  · exact hsend
  · split
    · exact hsend
    · rename_i stream' _ _
      have hreceive := (Incoming.ofLength a.width.bytes).supply_collect_le stream'
      split <;> rename_i hgot <;> rw [← receive, hgot] at hreceive <;>
        exact Nat.le_trans hreceive hsend

/-- A read that is answered takes its answer out of the supply. -/
theorem supply_of_exchange {c : Call} {a : Placement} {stream stream' : σ} {value : Option UInt32}
    (hread : c.operation = .read) (h : c.exchange a stream = (.ok value, stream')) :
    FiniteStream.supply stream' < FiniteStream.supply stream := by
  have hsend := (Outgoing.ofBytes (c.request a).encode).supply_transmit_le stream
  have hbytes := a.width.bytes_pos
  unfold Call.exchange at h
  split at h <;> rename_i hsent <;> rw [← send, hsent] at hsend
  · cases h
  · simp only [hread] at h
    split at h <;> rename_i hgot
    · cases h
    · cases h
      have htaken := Incoming.supply_of_collect hgot
      simp only [Incoming.ofLength] at htaken hsend
      omega

theorem supply_perform (b : Bridge σ) (c : Call) :
    FiniteStream.supply (b.perform c).state.stream ≤ FiniteStream.supply b.stream ∧
      ∀ reply, (b.perform c).answer = .ok reply → c.operation = .read →
        (b.perform c).state.faults = 0 →
          FiniteStream.supply (b.perform c).state.stream < FiniteStream.supply b.stream := by
  have haccess := b.access_perform c
  generalize b.perform c = o at haccess
  cases haccess with
  | refused => exact ⟨Nat.le_refl _, fun reply hreply => by cases hreply⟩
  | abandoned => exact ⟨Nat.le_refl _, fun _ _ _ hfaults => absurd hfaults (Nat.succ_ne_zero _)⟩
  | @failed a _ _ _ _ hexchange =>
    have hle := supply_exchange_le c a b.stream
    rw [hexchange] at hle
    exact ⟨hle, fun _ _ _ hfaults => absurd hfaults (Nat.succ_ne_zero _)⟩
  | @completed a _ _ _ _ hexchange =>
    have hle := supply_exchange_le c a b.stream
    rw [hexchange] at hle
    exact ⟨hle, fun _ _ hread _ => supply_of_exchange hread hexchange⟩

/-- On a stream with a finite supply the demo comes to an end. -/
theorem over_of_rank_le {stage : Stage} {b : Bridge σ} {accesses : Nat}
    (h : rank stage (FiniteStream.supply b.stream) ≤ accesses) :
    (drive accesses stage b).1.Over := by
  induction accesses generalizing stage b with
  | zero => exact over_of_rank_eq_zero (Nat.le_zero.mp h)
  | succ accesses ih =>
    cases hc : stage.call? 0 with
    | none =>
      have hover := (Stage.over_iff 0).mpr hc
      rwa [drive_of_over hover]
    | some c =>
      obtain ⟨hle, htaken⟩ := supply_perform b c
      have hcloser := rank_resume_lt hc _ _ hle htaken
      rw [drive_of_call? hc]
      exact ih (Nat.le_of_lt_succ (Nat.lt_of_lt_of_le hcloser h))

/-- More accesses than it takes change nothing. -/
theorem drive_of_budget_le {message : List UInt8} {b : Bridge σ} {accesses : Nat}
    (h : budget message (FiniteStream.supply b.stream) ≤ accesses) :
    drive accesses (.enabling message) b =
      drive (budget message (FiniteStream.supply b.stream)) (.enabling message) b := by
  have hover : (drive (budget message (FiniteStream.supply b.stream)) (.enabling message) b).1.Over :=
    over_of_rank_le (Nat.le_refl _)
  rw [← Nat.add_sub_of_le h, drive_add, drive_of_over hover]

end Termination

end RemoteRegisters.Demo
