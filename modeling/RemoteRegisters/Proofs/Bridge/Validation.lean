import RemoteRegisters.Proofs.Bridge.Exchange
import RemoteRegisters.Stream.Script

/-!
# Which accesses a bridge lets through

A bridge looks at the size of an access and at its place in the window, and at
nothing else: not at the stream, and not at whether the stream was given up. What
it refuses has no effect at all. What it lets through lies so low that the offset
fits the frame, which therefore carries it as it was given (`Bridge.validation`).

## Main definitions

- `Call.Framed` — calls on a stream hand it the frame of an access
- `Bridge.recorded` — a bridge that keeps a record of the calls on its stream
-/

namespace RemoteRegisters

namespace Window

variable {offset size : UInt64}

theorem place_eq_invalidSize_iff :
    place offset size = .error (.invalidSize size) ↔ ¬(size = 1 ∨ size = 2 ∨ size = 4) := by
  rw [Call.size_cases_iff]
  cases hwidth : Width.ofSize? size with
  | none => simp [place, hwidth]
  | some w =>
    rw [place_of_width hwidth]
    split <;> simp

/-- An access of a permitted size is refused exactly if it ends behind the window. The end is that of
unbounded arithmetic, so no offset is so high that it would wrap around into the window. -/
theorem place_eq_unmapped_iff (hsize : size = 1 ∨ size = 2 ∨ size = 4) :
    place offset size = .error (.unmapped offset) ↔ 0x1000 < offset.toNat + size.toNat := by
  obtain ⟨w, hw⟩ := Call.size_cases_iff.mp hsize
  have hwindow : windowSize.toNat = 0x1000 := rfl
  rw [place_of_width hw, Width.ofSize?_eq_some_iff.mp hw]
  split
  · rename_i hinside
    simp only [reduceCtorEq, false_iff]
    omega
  · rename_i houtside
    simp only [true_iff]
    omega

end Window

namespace Call

variable {σ : Type} [ByteStream σ] {c : Call} {a : Placement}

/-- An exchange gives a value exactly for a read. -/
theorem isSome_of_exchange {stream stream' : σ} {value : Option UInt32}
    (h : c.exchange a stream = (.ok value, stream')) :
    value.isSome = true ↔ c.operation = .read := by
  unfold exchange at h
  split at h
  · cases h
  · split at h
    · rename_i hop
      cases h
      simp [hop]
    · rename_i hop
      split at h <;> cases h
      simp [hop]

/-- An exchange offers the whole frame of its request first, and then nothing but ends of it. -/
theorem exists_first_offer {s s' : Recorded σ} {r : Except TransferError (Option UInt32)}
    (h : c.exchange a s = (r, s')) :
    ∃ later, s'.calls = s.calls ++ .write (c.request a).encode :: later ∧
      ∀ bytes, .write bytes ∈ later → bytes <:+ (c.request a).encode := by
  obtain ⟨s₁, hfirst, hoffers⟩ :=
    Outgoing.exists_first_offer (o := .ofBytes (c.request a).encode) (c.request a).encode_ne_nil s
  have hrest : Recorded.Offers (c.request a).encode (send s (c.request a).encode).2 s' := by
    unfold exchange at h
    split at h
    · rename_i hsend
      cases h
      rw [hsend]
      exact .refl _ _
    · rename_i stream' hsend
      rw [hsend]
      split at h
      · cases h
        exact .refl _ _
      · have hreceive := (Incoming.ofLength a.width.bytes).offers_collect (c.request a).encode stream'
        split at h <;> rename_i hgot <;> cases h <;> rw [receive] at hgot <;> rwa [hgot] at hreceive
  obtain ⟨later, hcalls, hends⟩ := hoffers.trans hrest
  refine ⟨later, ?_, hends⟩
  rw [hcalls, hfirst, List.append_assoc]
  rfl

/-- Calls on a stream offer the whole frame of an access first, and then nothing but ends of it. Read
back, the frame has the kind, the offset and the width of the access. -/
def Framed (c : Call) (calls : List StreamCall) : Prop :=
  ∃ (r : Request) (later : List StreamCall), calls = .write r.encode :: later ∧
    (∀ bytes, .write bytes ∈ later → bytes <:+ r.encode) ∧ Request.decode r.encode = .ok r ∧
    r.kind = c.operation.kind ∧ r.addr.toNat = c.address.toNat ∧ r.width.bytes = c.size.toNat

theorem framed_exchange (hplace : Window.place c.address c.size = .ok a) {s s' : Recorded σ}
    (hfresh : s.calls = []) {r : Except TransferError (Option UInt32)}
    (h : c.exchange a s = (r, s')) : c.Framed s'.calls := by
  have hoffset := Window.offset_of_place hplace
  have hwidth := Window.width_of_place hplace
  obtain ⟨later, hcalls, hends⟩ := exists_first_offer h
  rw [hfresh, List.nil_append] at hcalls
  have hdecode : Request.decode (c.request a).encode = .ok (c.request a) := by
    rw [Request.decode_encode, c.fit_request a]
  refine ⟨c.request a, later, hcalls, hends, hdecode, ?_⟩
  unfold request
  cases c.operation with
  | read => exact ⟨rfl, hoffset, hwidth.symm⟩
  | write value => exact ⟨rfl, hoffset, hwidth.symm⟩

end Call

namespace Bridge

variable {σ : Type}

/-- The bridge with a record of the calls that are made on its stream from here on. The record changes
nothing for the bridge (`perform_unrecorded`). -/
def recorded (b : Bridge σ) : Bridge (Recorded σ) where
  stream := { stream := b.stream }
  faults := b.faults
  broken := b.broken
  hooked := b.hooked
  hookCalls := b.hookCalls

variable [ByteStream σ]

/-- A bridge refuses what the window refuses, whatever state it is in. -/
theorem answer_eq_error_iff {b : Bridge σ} {c : Call} {e : AccessError} :
    (b.perform c).answer = .error e ↔ Window.place c.address c.size = .error e := by
  constructor
  · intro h
    have haccess := b.access_perform c
    generalize b.perform c = o at haccess h
    cases haccess with
    | refused hplace =>
      cases h
      exact hplace
    | abandoned => cases h
    | failed => cases h
    | completed => cases h
  · intro h
    rw [perform_of_refused h]

/-- An access that is let through gets an answer, with a value exactly for a read. -/
theorem answer_of_valid (b : Bridge σ) {c : Call} (h : c.Valid) :
    ∃ reply, (b.perform c).answer = .ok reply ∧ (reply.isSome = true ↔ c.operation = .read) := by
  have hfallback : c.operation.fallback.isSome = true ↔ c.operation = .read := by
    cases c.operation <;> simp [Operation.fallback]
  have haccess := b.access_perform c
  generalize b.perform c = o at haccess
  cases haccess with
  | refused hplace => exact absurd h (Call.not_valid_of_place hplace)
  | abandoned => exact ⟨_, rfl, hfallback⟩
  | failed => exact ⟨_, rfl, hfallback⟩
  | completed _ _ hexchange =>
    refine ⟨_, rfl, ?_⟩
    rw [Option.isSome_map]
    exact Call.isSome_of_exchange hexchange

/-- An access that is let through hands its frame to the stream, unless the stream was given up. -/
theorem framed_perform {b : Bridge (Recorded σ)} (hfresh : b.stream.calls = [])
    (hintact : b.broken = false) {c : Call} (h : c.Valid) :
    c.Framed (b.perform c).state.stream.calls := by
  have haccess := b.access_perform c
  generalize b.perform c = o at haccess
  cases haccess with
  | refused hplace => exact absurd h (Call.not_valid_of_place hplace)
  | abandoned _ hbroken => cases hintact.symm.trans hbroken
  | failed hplace _ hexchange => exact Call.framed_exchange hplace hfresh hexchange
  | completed hplace _ hexchange => exact Call.framed_exchange hplace hfresh hexchange

/-- What a bridge does with an access, in whatever state it is. A size other than 1, 2 and 4 is refused
as such. Of the other accesses those are refused for their offset that end behind the window, in
unbounded arithmetic, and all others get an answer, whatever the stream does. What is refused changes
nothing and makes no call on the stream. What is let through, by a bridge that has not given its
stream up, hands the stream a frame with the kind, the offset and the width of the access. -/
theorem validation (b : Bridge σ) (c : Call) :
    let o := b.perform c
    let calls := (b.recorded.perform c).state.stream.calls
    (o.answer = .error (.invalidSize c.size) ↔ ¬(c.size = 1 ∨ c.size = 2 ∨ c.size = 4)) ∧
      ((c.size = 1 ∨ c.size = 2 ∨ c.size = 4) →
        (o.answer = .error (.unmapped c.address) ↔ 0x1000 < c.address.toNat + c.size.toNat) ∧
          (c.address.toNat + c.size.toNat ≤ 0x1000 →
            ∃ reply, o.answer = .ok reply ∧ (reply.isSome = true ↔ c.operation = .read))) ∧
      (∀ e, o.answer = .error e → o.state = b ∧ calls = []) ∧
      ∀ reply, o.answer = .ok reply → b.broken = false → c.Framed calls := by
  intro o calls
  refine ⟨?_, fun hsize => ⟨?_, fun hinside => ?_⟩, fun e herror => ?_, fun reply hreply hintact => ?_⟩
  · exact answer_eq_error_iff.trans Window.place_eq_invalidSize_iff
  · exact answer_eq_error_iff.trans (Window.place_eq_unmapped_iff hsize)
  · exact b.answer_of_valid ⟨hsize, hinside⟩
  · have hplace := answer_eq_error_iff.mp herror
    have hstate : o.state = b := congrArg Outcome.state (perform_of_refused hplace)
    have hrecorded : (b.recorded.perform c).state = b.recorded :=
      congrArg Outcome.state (perform_of_refused hplace)
    exact ⟨hstate, congrArg (fun b => b.stream.calls) hrecorded⟩
  · have hvalid : c.Valid := by
      cases hplace : Window.place c.address c.size with
      | ok a => exact Call.valid_of_place hplace
      | error e => cases hreply.symm.trans (answer_eq_error_iff.mpr hplace)
    exact framed_perform rfl hintact hvalid

/-- The last word of the window is let through on a stream that takes one byte at a time; its frame is
offered whole first. The word behind it, a word at the end of the 64-bit range and an access whose
size is a width plus 256 are refused. -/
theorem validation_end_of_window :
    let stream : Script := { reads := [], writes := [.accept 1], flushes := [] }
    let b : Bridge Script := { stream := stream, hooked := true }
    (Call.write 0xFFC 4 7).Framed (b.recorded.perform (.write 0xFFC 4 7)).state.stream.calls ∧
      (b.perform (.read 0xFFD 4)).answer = .error (.unmapped 0xFFD) ∧
      (b.perform (.read 0xFFFF_FFFF_FFFF_FFFE 4)).answer =
        .error (.unmapped 0xFFFF_FFFF_FFFF_FFFE) ∧
      (b.perform (.read 0 0x104)).answer = .error (.invalidSize 0x104) ∧
      (b.perform (.read 0 0x104)).state = b := by
  intro stream b
  obtain ⟨-, hplaced, -, hframed⟩ := b.validation (.write 0xFFC 4 7)
  obtain ⟨reply, hreply, -⟩ := (hplaced (by decide)).2 (by decide)
  obtain ⟨-, hbehind, -⟩ := b.validation (.read 0xFFD 4)
  obtain ⟨-, hhigh, -⟩ := b.validation (.read 0xFFFF_FFFF_FFFF_FFFE 4)
  obtain ⟨hsize, -, hrefused, -⟩ := b.validation (.read 0 0x104)
  have hwide := hsize.mpr (by decide)
  exact ⟨hframed reply hreply rfl, (hbehind (by decide)).1.mpr (by decide),
    (hhigh (by decide)).1.mpr (by decide), hwide, (hrefused _ hwide).1⟩

end Bridge

end RemoteRegisters
