import RemoteRegisters.Proofs.Access.Bits
import RemoteRegisters.Proofs.Bridge.Delivery
import RemoteRegisters.Proofs.Frame.Image

/-!
# Which bytes answer which read

The responses that a script delivers stand one behind the other, and nothing in
them says where one ends. A bridge keeps them apart only by taking, for each read,
as many bytes as its width has, and none for anything else. As long as no access
has failed it stands behind the responses of all valid reads before
(`Bridge.taken_of_intact`), so that each completed read gets the bytes that are
its own. The access that fails first may have got a part of its response; what
follows that part is never taken by anyone.

## Main definitions

- `Request.answerLength`, `Request.answerLengths` — how many bytes answer a request, or several
- `Request.Cut` — how much of its response a failed exchange has taken
-/

namespace RemoteRegisters

namespace Request

/-- The number of bytes that answer a request. -/
def answerLength : Request → Nat
  | read _ w => w.bytes
  | write .. => 0

def answerLengths (rs : List Request) : Nat :=
  (rs.map answerLength).sum

theorem answerLengths_cons (r : Request) (rs : List Request) :
    answerLengths (r :: rs) = r.answerLength + answerLengths rs := by
  rw [answerLengths, List.map_cons, List.sum_cons]
  rfl

/-- How many bytes of its response an exchange has taken that failed: none if the request could not
be sent, and else fewer than answer it. -/
inductive Cut (r : Request) (s : Script) : Nat → Prop where
  | unsent {e : TransferError} : (send s r.encode).1 = .error e → Cut r s 0
  | unanswered {got : Nat} : (send s r.encode).1 = .ok () → got < r.answerLength → Cut r s got

end Request

/-! ### One exchange -/

namespace Call

variable {c : Call} {a : Placement} {s s' : Script}

theorem answerLength_of_read (hop : c.operation = .read) :
    (c.request a).answerLength = a.width.bytes := by
  simp only [request, hop, Request.answerLength]

theorem answerLength_of_write {value : UInt64} (hop : c.operation = .write value) :
    (c.request a).answerLength = 0 := by
  simp only [request, hop, Request.ofWrite, Request.answerLength]

/-- A completed exchange takes its response, and nothing else, and a read is answered by it. -/
theorem taken_of_completed {value : Option UInt32} (h : c.exchange a s = (.ok value, s')) :
    ∃ got, s.undelivered = got ++ s'.undelivered ∧ got.length = (c.request a).answerLength ∧
      (c.operation = .read → value = some (valueOfBytes got)) := by
  unfold exchange at h
  split at h
  · cases h
  · rename_i stream hsend
    have hsame := undelivered_of_send hsend
    split at h
    · rename_i hop
      cases h
      exact ⟨[], hsame.symm, (answerLength_of_write hop).symm,
        fun hread => by cases hop.symm.trans hread⟩
    · rename_i hop
      split at h
      · cases h
      · rename_i hreceive
        cases h
        obtain ⟨got, htaken, hends⟩ := Incoming.ends_collect hreceive
        cases hends with
        | whole hlen =>
          exact ⟨got, hsame ▸ htaken, hlen.trans (answerLength_of_read hop).symm, fun _ => rfl⟩

/-- A failed exchange has taken a part of its response at most. -/
theorem taken_of_failed {e : TransferError} (h : c.exchange a s = (.error e, s')) :
    ∃ got, s.undelivered = got ++ s'.undelivered ∧ (c.request a).Cut s got.length := by
  unfold exchange at h
  split at h
  · rename_i hsend
    cases h
    exact ⟨[], (undelivered_of_send hsend).symm, .unsent (congrArg Prod.fst hsend)⟩
  · rename_i stream hsend
    split at h
    · cases h
    · rename_i hop
      split at h
      · rename_i hreceive
        cases h
        obtain ⟨got, htaken, hends⟩ := Incoming.ends_collect hreceive
        refine ⟨got, undelivered_of_send hsend ▸ htaken, .unanswered (congrArg Prod.fst hsend) ?_⟩
        rw [answerLength_of_read hop]
        cases hends with
        | cut hlen => exact hlen
        | failed hlen => exact hlen
      · cases h

/-- Only a read has a response of which a failed exchange can have taken something. -/
theorem eq_zero_of_cut {got : Nat} (hop : c.operation ≠ .read)
    (h : (c.request a).Cut s got) : got = 0 := by
  cases h with
  | unsent => rfl
  | unanswered _ hlt =>
    cases hc : c.operation with
    | read => exact absurd hc hop
    | write value =>
      rw [answerLength_of_write hc] at hlt
      exact absurd hlt (Nat.not_lt_zero _)

end Call

namespace Bridge

/-! ### The stream along a run -/

theorem intact_of_after {b : Bridge Script} {cs : List Call} (h : (b.after cs).broken = false) :
    b.broken = false := by
  cases hbroken : b.broken with
  | false => rfl
  | true => exact absurd (after_of_broken hbroken cs).1 (by rw [h]; exact Bool.false_ne_true)

/-- An access that is no valid read takes nothing from the data. -/
theorem undelivered_perform {b : Bridge Script} {c : Call}
    (h : ¬(c.Valid ∧ c.operation = .read)) :
    (b.perform c).state.stream.undelivered = b.stream.undelivered := by
  have haccess := b.access_perform c
  generalize b.perform c = o at haccess
  cases haccess with
  | refused => rfl
  | abandoned => rfl
  | failed hplace _ hexchange =>
    have hop : c.operation ≠ .read := fun hread => h ⟨Call.valid_of_place hplace, hread⟩
    obtain ⟨got, htaken, hcut⟩ := Call.taken_of_failed hexchange
    cases List.eq_nil_of_length_eq_zero (Call.eq_zero_of_cut hop hcut)
    exact htaken.symm
  | completed hplace _ hexchange =>
    obtain ⟨got, htaken, hlen, -⟩ := Call.taken_of_completed hexchange
    cases hop : c.operation with
    | read => exact absurd ⟨Call.valid_of_place hplace, hop⟩ h
    | write value =>
      rw [Call.answerLength_of_write hop] at hlen
      cases List.eq_nil_of_length_eq_zero hlen
      exact htaken.symm

/-- Up to the first failure a run takes the responses to its valid accesses. -/
theorem taken_of_intact {b : Bridge Script} {cs : List Call} (h : (b.after cs).broken = false) :
    ∃ taken, taken.length = Request.answerLengths (Call.requests cs) ∧
      b.stream.undelivered = taken ++ (b.after cs).stream.undelivered := by
  induction cs generalizing b with
  | nil => exact ⟨[], rfl, rfl⟩
  | cons c cs ih =>
    rw [after_cons] at h ⊢
    rw [Call.requests_cons]
    obtain ⟨taken, hlen, hdata⟩ := ih h
    have hintact := intact_of_after h
    have haccess := b.access_perform c
    generalize b.perform c = o at haccess hdata hintact
    cases haccess with
    | refused hplace =>
      rw [Call.request?_of_refused hplace]
      exact ⟨taken, hlen, hdata⟩
    | abandoned => cases hintact
    | failed => cases hintact
    | completed hplace _ hexchange =>
      obtain ⟨got, hgot, hgotlen, -⟩ := Call.taken_of_completed hexchange
      refine ⟨got ++ taken, ?_, ?_⟩
      · rw [Call.request?_of_place hplace, List.length_append, hgotlen, hlen]
        exact (Request.answerLengths_cons _ _).symm
      · rw [hgot, List.append_assoc]
        exact congrArg (got ++ ·) hdata

/-- A completed read is answered by the bytes behind the responses to the valid reads before it. -/
theorem answer_of_completed (b : Bridge Script) (cs : List Call) {c : Call}
    (hread : c.operation = .read) (hvalid : c.Valid)
    (h : ((b.after cs).perform c).state.broken = false) :
    let start := Request.answerLengths (Call.requests cs)
    start + c.size.toNat ≤ b.stream.undelivered.length ∧
      ∃ value, ((b.after cs).perform c).answer = .ok (some value) ∧
        value.toNat =
          LittleEndian.ofBytes ((b.stream.undelivered.drop start).take c.size.toNat) ∧
        value.toNat < 2 ^ (8 * c.size.toNat) := by
  intro start
  have hnext : ((b.after cs).after [c]).broken = false := h
  have hcs : (b.after cs).broken = false := intact_of_after hnext
  obtain ⟨taken, hlen, hdata⟩ := taken_of_intact hcs
  have haccess := (b.after cs).access_perform c
  generalize (b.after cs).perform c = o at haccess h
  cases haccess with
  | refused hplace => exact absurd hvalid (Call.not_valid_of_place hplace)
  | abandoned => cases h
  | failed => cases h
  | @completed a value stream hplace _ hexchange =>
    obtain ⟨got, hgot, hgotlen, hvalue⟩ := Call.taken_of_completed hexchange
    rw [Call.answerLength_of_read hread] at hgotlen
    have hsize := Window.width_of_place hplace
    have hslice : (b.stream.undelivered.drop start).take c.size.toNat = got := by
      rw [hdata, List.drop_left' hlen, hgot, List.take_left' (hgotlen.trans hsize.symm)]
    have hfits := toNat_valueOfBytes_lt hgotlen
    rw [Width.range_eq_two_pow, Width.bits, ← hsize] at hfits
    refine ⟨?_, (valueOfBytes got).toUInt64, ?_, ?_, ?_⟩
    · rw [hdata, hgot, List.length_append, List.length_append, hlen, hgotlen, hsize]
      omega
    · rw [hvalue hread]
      rfl
    · rw [hslice, UInt32.toNat_toUInt64, toNat_valueOfBytes hgotlen]
    · rwa [UInt32.toNat_toUInt64]

/-! ### The run up to its first failure and behind it -/

theorem length_le_and_eq_drop {data front rest : List UInt8} {n : Nat} (hdata : data = front ++ rest)
    (hlen : front.length = n) : n ≤ data.length ∧ rest = data.drop n := by
  rw [hdata, List.length_append, List.drop_left' hlen, hlen]
  exact ⟨Nat.le_add_right _ _, rfl⟩

theorem completed_append {σ : Type} [ByteStream σ] (b : Bridge σ) (cs ds : List Call) :
    b.completed (cs ++ ds) = b.completed cs ++ (b.after cs).completed ds := by
  induction cs generalizing b with
  | nil => rfl
  | cons c cs ih =>
    rw [List.cons_append, completed, completed, ih, after_cons]
    split
    · rw [List.append_assoc]
    · rfl

theorem completed_of_intact {b : Bridge Script} {cs : List Call}
    (h : (b.after cs).broken = false) : b.completed cs = Call.requests cs := by
  obtain ⟨-, hrequests, -⟩ | ⟨hbroken, -⟩ := sent_after (intact_of_after h) cs
  · exact hrequests.symm
  · cases h.symm.trans hbroken

/-- A run without a failure has taken the responses to its accesses. -/
theorem left_of_intact {b : Bridge Script} {cs : List Call} (h : (b.after cs).broken = false) :
    let consumed := Request.answerLengths (b.completed cs)
    consumed ≤ b.stream.undelivered.length ∧
      (b.after cs).stream.undelivered = b.stream.undelivered.drop consumed := by
  intro consumed
  obtain ⟨taken, hlen, hdata⟩ := taken_of_intact h
  rw [← completed_of_intact h] at hlen
  exact length_le_and_eq_drop hdata hlen

/-- The first failure of a run: the accesses before it are those that were completed, and the stream
is left where the failed exchange left it. -/
theorem first_failure {b : Bridge Script} {cs : List Call} (hfresh : b.broken = false)
    (h : (b.after cs).broken = true) :
    let consumed := Request.answerLengths (b.completed cs)
    ∃ pre c post r got, cs = pre ++ c :: post ∧ c.request? = some r ∧
      (b.after pre).broken = false ∧
      ((b.after pre).perform c).state.faults = (b.after pre).faults + 1 ∧
      b.completed cs = Call.requests pre ∧ r.Cut (b.after pre).stream got ∧
      consumed + got ≤ b.stream.undelivered.length ∧
      (b.after cs).stream.undelivered = b.stream.undelivered.drop (consumed + got) := by
  intro consumed
  obtain hbroken | ⟨pre, c, post, rfl, hintact, a, e, stream, hplace, hexchange⟩ :=
    (b.broken_after_iff cs).mp h
  · cases hfresh.symm.trans hbroken
  · obtain ⟨taken, hlen, hdata⟩ := taken_of_intact hintact
    obtain ⟨got, htaken, hcut⟩ := Call.taken_of_failed hexchange
    have hperform := perform_of_access (.failed hplace hintact hexchange)
    have hbroken : ((b.after pre).perform c).state.broken = true := by rw [hperform]; rfl
    have hfaults : ((b.after pre).perform c).state.faults = (b.after pre).faults + 1 := by
      rw [hperform]
      rfl
    have hnone : (b.after pre).completed (c :: post) = [] := by
      have hcounted : ¬((b.after pre).perform c).state.faults = (b.after pre).faults := by
        rw [hfaults]
        exact Nat.succ_ne_self _
      rw [completed]
      exact (if_neg hcounted).trans (completed_of_broken hbroken post)
    have hcompleted : b.completed (pre ++ c :: post) = Call.requests pre := by
      rw [completed_append, hnone, List.append_nil, completed_of_intact hintact]
    have hleft : (b.after (pre ++ c :: post)).stream = stream := by
      rw [after_append, after_cons, (after_of_broken hbroken post).2, hperform]
      rfl
    rw [htaken, ← hleft, ← List.append_assoc] at hdata
    rw [← hcompleted] at hlen
    exact ⟨pre, c, post, c.request a, got.length, rfl, Call.request?_of_place hplace, hintact,
      hfaults, hcompleted, hcut, length_le_and_eq_drop hdata (by rw [List.length_append, hlen])⟩

/-- A read through a stream that was given up gets none of its bytes. -/
theorem answer_of_broken {b : Bridge Script} (h : b.broken = true) (later : List Call) {c : Call}
    (hvalid : c.Valid) (hread : c.operation = .read) :
    ((b.after later).perform c).answer = .ok (some 0) := by
  have hbroken := (perform_of_broken (after_of_broken h later).1 c).1
  rw [(settles_perform hvalid).fallback hbroken, hread]
  rfl

/-- Every completed read gets its own bytes. With `data` what the script delivers, a valid read that
is not counted as a fault returns the number that stands behind the responses to the valid reads
before it, and no other access takes anything. A whole run has taken the responses to the completed
accesses, and if one failed, what the first to fail had got of its response by then. What follows is
left for ever, and later reads return zero. -/
theorem responses_aligned (s : Script) (hooked : Bool) (cs : List Call) :
    let fresh : Bridge Script := { stream := s, hooked := hooked }
    let b := fresh.after cs
    let data := s.undelivered
    let consumed := Request.answerLengths (fresh.completed cs)
    (∀ c, let o := b.perform c
      let start := Request.answerLengths (Call.requests cs)
      (c.Valid → c.operation = .read → o.state.faults = b.faults →
        start + c.size.toNat ≤ data.length ∧
        ∃ value, o.answer = .ok (some value) ∧
          value.toNat = LittleEndian.ofBytes ((data.drop start).take c.size.toNat) ∧
          value.toNat < 2 ^ (8 * c.size.toNat)) ∧
      (¬(c.Valid ∧ c.operation = .read) →
        o.state.stream.undelivered = b.stream.undelivered)) ∧
    (b.faults = 0 ∧ fresh.completed cs = Call.requests cs ∧ consumed ≤ data.length ∧
        b.stream.undelivered = data.drop consumed ∨
      1 ≤ b.faults ∧ ∃ pre c post r got, cs = pre ++ c :: post ∧ c.request? = some r ∧
        (fresh.after pre).faults = 0 ∧ ((fresh.after pre).perform c).state.faults = 1 ∧
        fresh.completed cs = Call.requests pre ∧ r.Cut (fresh.after pre).stream got ∧
        consumed + got ≤ data.length ∧ b.stream.undelivered = data.drop (consumed + got) ∧
        ∀ later, (b.after later).stream.undelivered = b.stream.undelivered ∧
          ∀ c, c.Valid → c.operation = .read →
            ((b.after later).perform c).answer = .ok (some 0)) := by
  intro fresh b data consumed
  have hbooks (ds : List Call) : (fresh.after ds).Books hooked := (books_fresh s hooked).after ds
  refine ⟨fun c => ⟨fun hvalid hread hfaults => ?_, undelivered_perform⟩, ?_⟩
  · refine fresh.answer_of_completed cs hread hvalid (Bool.eq_false_iff.mpr fun hbroken => ?_)
    have hcounted := (b.faults_perform_iff c).mpr ⟨hvalid, hbroken⟩
    exact absurd (hcounted.symm.trans hfaults) (Nat.succ_ne_self _)
  · cases hbroken : b.broken with
    | false =>
      exact .inl ⟨(hbooks cs).broken_eq_false_iff.mp hbroken, completed_of_intact hbroken,
        left_of_intact hbroken⟩
    | true =>
      obtain ⟨pre, c, post, r, got, hsplit, hrequest, hintact, hfaults, hcompleted, hcut, hle,
        hleft⟩ := first_failure rfl hbroken
      have hnone := (hbooks pre).broken_eq_false_iff.mp hintact
      rw [hnone] at hfaults
      refine .inr ⟨(hbooks cs).broken_iff.mp hbroken, pre, c, post, r, got, hsplit, hrequest,
        hnone, hfaults, hcompleted, hcut, hle, hleft, fun later => ⟨?_, fun d => ?_⟩⟩
      · rw [(after_of_broken hbroken later).2]
      · exact answer_of_broken hbroken later

/-- Two reads, with a write and a refused access around the first, and a chunk that ends within its
response. -/
theorem responses_aligned_chunks :
    let s : Script := { reads := [.data [1], .data [0, 2, 3, 4]], writes := [], flushes := [] }
    let b := ({ stream := s } : Bridge Script).after [.write 0 1 0x41, .read 4 2, .read 0x1000 1]
    let o := b.perform (.read 8 2)
    (Call.read 8 2).Valid ∧ o.state.faults = b.faults ∧
      (∃ value, o.answer = .ok (some value) ∧ value.toNat = 0x0302) ∧
      (b.perform (.write 8 4 0)).state.stream.undelivered = b.stream.undelivered := by
  intro s b o
  have hvalid : (Call.read 8 2).Valid := by decide
  have hfaults : o.state.faults = b.faults := by
    simp only [o, b, s]
    cbv
  obtain ⟨haccess, -⟩ :=
    responses_aligned s false [.write 0 1 0x41, .read 4 2, .read 0x1000 1]
  obtain ⟨-, value, hanswer, hvalue, -⟩ := (haccess (.read 8 2)).1 hvalid rfl hfaults
  refine ⟨hvalid, hfaults, ⟨value, hanswer, ?_⟩, (haccess (.write 8 4 0)).2 ?_⟩
  · rw [hvalue]
    rfl
  · rintro ⟨-, hread⟩
    cases hread

end Bridge

end RemoteRegisters
