import RemoteRegisters.Bridge
import RemoteRegisters.Proofs.Frame.RoundTrip
import RemoteRegisters.Proofs.Stream.Calls

/-!
# The ends that an access to a bridge can come to

An access is refused before anything is sent, or it is lost because the stream
was given up before, or it makes its exchange, and the exchange fails or
succeeds. `Bridge.Access` says for each of the four what comes of it. Whatever
holds of a run of accesses rests on this case distinction and on nothing else
of the bridge.

## Main definitions

- `Call.Valid` — the accesses that are let through
- `Call.request?`, `Call.requests` — the request that an access sends, and those of many
- `Call.exchange` — the exchange of an access, on the stream alone
- `Bridge.Fails` — an access makes its exchange, and the exchange fails
-/

namespace RemoteRegisters

namespace Call

/-- The size is that of a width, and the access ends inside the window. -/
def Valid (c : Call) : Prop :=
  (c.size = 1 ∨ c.size = 2 ∨ c.size = 4) ∧ c.address.toNat + c.size.toNat ≤ 0x1000

instance : DecidablePred Valid :=
  fun c => inferInstanceAs (Decidable ((c.size = 1 ∨ c.size = 2 ∨ c.size = 4) ∧ _))

def request (c : Call) (a : Placement) : Request :=
  match c.operation with
  | .read => .read a.offset a.width
  | .write value => .ofWrite a.offset a.width value

/-- The request that an access sends, unless it is refused. -/
def request? (c : Call) : Option Request :=
  match Window.place c.address c.size with
  | .error _ => none
  | .ok a => some (c.request a)

/-- The requests of the valid accesses among some. -/
def requests (cs : List Call) : List Request :=
  cs.filterMap request?

/-- The exchange of an access: its request, and the value that answers a read. -/
def exchange {σ : Type} [ByteStream σ] (c : Call) (a : Placement) (stream : σ) :
    Except TransferError (Option UInt32) × σ :=
  match send stream (c.request a).encode with
  | (.error e, stream') => (.error e, stream')
  | (.ok (), stream') =>
      match c.operation with
      | .write _ => (.ok none, stream')
      | .read =>
          match receive stream' a.width.bytes with
          | (.error e, stream'') => (.error e, stream'')
          | (.ok bytes, stream'') => (.ok (some (valueOfBytes bytes)), stream'')

def report (c : Call) (value : Option UInt32) : Event :=
  match c.operation with
  | .read => .bridgeRead c.address c.size (value.getD 0)
  | .write written => .bridgeWrite c.address c.size written

theorem size_cases_iff {size : UInt64} :
    (size = 1 ∨ size = 2 ∨ size = 4) ↔ ∃ w : Width, Width.ofSize? size = some w := by
  constructor
  · rintro (rfl | rfl | rfl)
    · exact ⟨.byte, rfl⟩
    · exact ⟨.half, rfl⟩
    · exact ⟨.word, rfl⟩
  · rintro ⟨w, hw⟩
    have hsize := Width.ofSize?_eq_some_iff.mp hw
    cases w with
    | byte => exact .inl (UInt64.toNat_inj.mp hsize)
    | half => exact .inr (.inl (UInt64.toNat_inj.mp hsize))
    | word => exact .inr (.inr (UInt64.toNat_inj.mp hsize))

theorem valid_iff {c : Call} : c.Valid ↔ ∃ a, Window.place c.address c.size = .ok a := by
  unfold Valid
  rw [size_cases_iff]
  constructor
  · rintro ⟨⟨w, hw⟩, hend⟩
    rw [Width.ofSize?_eq_some_iff.mp hw] at hend
    refine ⟨⟨c.address.toUInt32, w⟩, ?_⟩
    rw [Window.place_of_width hw]
    exact if_pos hend
  · rintro ⟨a, ha⟩
    obtain ⟨hwidth, -, hend⟩ := Window.of_place ha
    refine ⟨⟨a.width, hwidth⟩, ?_⟩
    rwa [Width.ofSize?_eq_some_iff.mp hwidth]

theorem valid_of_place {c : Call} {a : Placement} (h : Window.place c.address c.size = .ok a) :
    c.Valid :=
  valid_iff.mpr ⟨a, h⟩

theorem not_valid_of_place {c : Call} {e : AccessError}
    (h : Window.place c.address c.size = .error e) : ¬c.Valid := by
  rw [valid_iff]
  rintro ⟨a, ha⟩
  cases h.symm.trans ha

theorem request?_of_place {c : Call} {a : Placement}
    (h : Window.place c.address c.size = .ok a) : c.request? = some (c.request a) := by
  simp only [request?, h]

theorem request?_of_refused {c : Call} {e : AccessError}
    (h : Window.place c.address c.size = .error e) : c.request? = none := by
  simp only [request?, h]

theorem requests_append (cs ds : List Call) :
    requests (cs ++ ds) = requests cs ++ requests ds :=
  List.filterMap_append

theorem requests_cons (c : Call) (cs : List Call) :
    requests (c :: cs) = c.request?.toList ++ requests cs := by
  rw [requests, List.filterMap_cons]
  cases c.request? <;> rfl

theorem length_requests (cs : List Call) :
    (requests cs).length = cs.countP fun c => decide c.Valid := by
  rw [requests, List.length_filterMap_eq_countP]
  refine List.countP_congr fun c _ => ?_
  rw [decide_eq_true_iff]
  cases hplace : Window.place c.address c.size with
  | error e => simp [request?_of_refused hplace, not_valid_of_place hplace]
  | ok a => simp [request?_of_place hplace, valid_of_place hplace]

theorem fit_request (c : Call) (a : Placement) : (c.request a).fit = c.request a := by
  unfold request
  cases c.operation with
  | read => rfl
  | write value => exact Request.fit_ofWrite a.offset a.width value

theorem exchange_of_read {σ : Type} [ByteStream σ] {c : Call} (hop : c.operation = .read)
    (a : Placement) (stream : σ) :
    c.exchange a stream =
      ((Bridge.exchange stream a).1.map some, (Bridge.exchange stream a).2) := by
  simp only [exchange, Bridge.exchange, request, hop]
  obtain ⟨sent, stream'⟩ := send stream (Request.read a.offset a.width).encode
  cases sent with
  | error e => rfl
  | ok _ =>
    dsimp only
    obtain ⟨got, stream''⟩ := receive stream' a.width.bytes
    cases got <;> rfl

theorem exchange_of_write {σ : Type} [ByteStream σ] {c : Call} {value : UInt64}
    (hop : c.operation = .write value) (a : Placement) (stream : σ) :
    c.exchange a stream =
      ((send stream (Request.ofWrite a.offset a.width value).encode).1.map fun _ => none,
        (send stream (Request.ofWrite a.offset a.width value).encode).2) := by
  simp only [exchange, request, hop]
  obtain ⟨sent, stream'⟩ := send stream (Request.ofWrite a.offset a.width value).encode
  cases sent <;> rfl

end Call

namespace Bridge

variable {σ : Type} [ByteStream σ]

/-- What comes of an access. -/
inductive Access (b : Bridge σ) (c : Call) : Outcome (Bridge σ) Answer → Prop where
  /-- The access is refused, and the bridge stays as it is. -/
  | refused {e : AccessError} :
      Window.place c.address c.size = .error e → Access b c ⟨.error e, b, refusalEvents e⟩
  /-- The stream was given up before, and the access does not touch it. -/
  | abandoned {a : Placement} :
      Window.place c.address c.size = .ok a → b.broken = true → Access b c (b.lose c .abandoned)
  | failed {a : Placement} {e : TransferError} {stream : σ} :
      Window.place c.address c.size = .ok a → b.broken = false →
        c.exchange a b.stream = (.error e, stream) →
        Access b c ({ b with stream := stream }.lose c e)
  | completed {a : Placement} {value : Option UInt32} {stream : σ} :
      Window.place c.address c.size = .ok a → b.broken = false →
        c.exchange a b.stream = (.ok value, stream) →
        Access b c ⟨.ok (value.map UInt32.toUInt64), { b with stream := stream }, [c.report value]⟩

theorem access_perform (b : Bridge σ) (c : Call) : b.Access c (b.perform c) := by
  unfold perform
  split
  · rename_i hplace
    exact .refused hplace
  · rename_i a hplace
    unfold forward
    split
    · rename_i hbroken
      exact .abandoned hplace hbroken
    · rename_i hbroken
      have hintact : b.broken = false := Bool.eq_false_iff.mpr hbroken
      cases hop : c.operation with
      | read =>
        have hexchange := Call.exchange_of_read hop a b.stream
        dsimp only
        split <;> rename_i hread <;> rw [hread] at hexchange
        · exact .failed hplace hintact hexchange
        · have hdone := Access.completed hplace hintact hexchange
          rwa [Call.report, hop] at hdone
      | write value =>
        have hexchange := Call.exchange_of_write hop a b.stream
        dsimp only
        split <;> rename_i hwrite <;> rw [hwrite] at hexchange
        · exact .failed hplace hintact hexchange
        · have hdone := Access.completed hplace hintact hexchange
          rwa [Call.report, hop] at hdone

/-- An access comes to one end only. -/
theorem perform_of_access {b : Bridge σ} {c : Call} {o : Outcome (Bridge σ) Answer}
    (h : b.Access c o) : b.perform c = o := by
  have haccess := b.access_perform c
  generalize b.perform c = o' at haccess
  cases h <;> cases haccess <;> grind

/-- An access makes its exchange, and the exchange fails. -/
def Fails (b : Bridge σ) (c : Call) : Prop :=
  b.broken = false ∧ ∃ a e stream,
    Window.place c.address c.size = .ok a ∧ c.exchange a b.stream = (.error e, stream)

/-! ### The bridge along a run -/

theorem after_cons (b : Bridge σ) (c : Call) (cs : List Call) :
    b.after (c :: cs) = (b.perform c).state.after cs :=
  rfl

theorem after_append (b : Bridge σ) (cs ds : List Call) :
    b.after (cs ++ ds) = (b.after cs).after ds :=
  List.foldl_append

/-! ### Bridges over recorded streams -/

end Bridge

theorem Call.exchange_of_recorded {σ : Type} [ByteStream σ] {c : Call} {a : Placement}
    {s s' : Recorded σ} {r : Except TransferError (Option UInt32)} (h : c.exchange a s = (r, s')) :
    c.exchange a s.stream = (r, s'.stream) := by
  unfold exchange at h
  split at h
  · rename_i hsend
    cases h
    simp only [exchange, send_of_recorded hsend]
  · rename_i hsend
    simp only [exchange, send_of_recorded hsend]
    split at h
    · cases h
      rfl
    · split at h <;> rename_i hreceive <;> cases h <;> simp only [receive_of_recorded hreceive]

namespace Bridge

variable {σ : Type}

def unrecorded (b : Bridge (Recorded σ)) : Bridge σ where
  stream := b.stream.stream
  faults := b.faults
  broken := b.broken
  hooked := b.hooked
  hookCalls := b.hookCalls

/-- Recording the calls on the stream changes nothing for the bridge. -/
theorem perform_unrecorded [ByteStream σ] (b : Bridge (Recorded σ)) (c : Call) :
    b.unrecorded.perform c =
      ⟨(b.perform c).answer, (b.perform c).state.unrecorded, (b.perform c).log⟩ := by
  have haccess := b.access_perform c
  generalize b.perform c = o at haccess
  apply perform_of_access
  cases haccess with
  | refused hplace => exact .refused hplace
  | abandoned hplace hbroken => exact .abandoned hplace hbroken
  | failed hplace hintact hexchange =>
    exact .failed hplace hintact (Call.exchange_of_recorded hexchange)
  | completed hplace hintact hexchange =>
    exact .completed hplace hintact (Call.exchange_of_recorded hexchange)

theorem after_unrecorded [ByteStream σ] (b : Bridge (Recorded σ)) (cs : List Call) :
    b.unrecorded.after cs = (b.after cs).unrecorded := by
  induction cs generalizing b with
  | nil => rfl
  | cons c cs ih => rw [after_cons, perform_unrecorded, ih, after_cons]

end Bridge

end RemoteRegisters
