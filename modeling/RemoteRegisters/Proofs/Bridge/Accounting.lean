import RemoteRegisters.Proofs.Bridge.Exchange
import RemoteRegisters.Stream.Script

/-!
# What a bridge counts, reports and gives up

The counter of faults, the flag of a broken stream, the calls of the shutdown
hook and the errors in the log go together (`Bridge.Books`), and every access
keeps them so. An access is counted exactly if it is valid and its own exchange
failed, or that of an access before it (`Bridge.accounting`). Once an access has
been counted the stream is left alone.

## Main definitions

- `Bridge.Books` — the counter, the flag and the hook of a bridge agree
- `Bridge.Settles` — what a valid access comes to
-/

namespace RemoteRegisters

namespace Bridge

/-! ### The books -/

section Books

variable {σ : Type}

/-- The counter, the flag and the hook of a bridge agree. -/
structure Books (hooked : Bool) (b : Bridge σ) : Prop where
  hooked_eq : b.hooked = hooked
  broken_iff : b.broken = true ↔ 1 ≤ b.faults
  hookCalls_eq : b.hookCalls = if hooked && b.broken then 1 else 0

theorem books_fresh (stream : σ) (hooked : Bool) :
    Books hooked { stream := stream, hooked := hooked } :=
  ⟨rfl, by simp, by simp⟩

variable {hooked : Bool} {b : Bridge σ}

/-- Recording a fault runs the hook if it is the first one. -/
theorem Books.recordFault (h : b.Books hooked) : b.recordFault.Books hooked where
  hooked_eq := h.hooked_eq
  broken_iff := by simp [Bridge.recordFault]
  hookCalls_eq := by
    have hcalls := h.hookCalls_eq
    have heq := h.hooked_eq
    cases hbroken : b.broken <;> cases hooked <;> simp_all [Bridge.recordFault]

theorem Books.lose (h : b.Books hooked) (c : Call) (e : TransferError) :
    (b.lose c e).state.Books hooked :=
  h.recordFault

theorem Books.withStream (h : b.Books hooked) (stream : σ) :
    { b with stream := stream }.Books hooked :=
  ⟨h.hooked_eq, h.broken_iff, h.hookCalls_eq⟩

theorem Books.broken_eq_false_iff (h : b.Books hooked) : b.broken = false ↔ b.faults = 0 := by
  rw [← Bool.not_eq_true, h.broken_iff]
  omega

end Books

variable {σ : Type} [ByteStream σ]

/-! ### The bridge along a run -/

theorem Books.perform {hooked : Bool} {b : Bridge σ} (h : b.Books hooked) (c : Call) :
    (b.perform c).state.Books hooked := by
  have haccess := b.access_perform c
  generalize b.perform c = o at haccess
  cases haccess with
  | refused => exact h
  | abandoned => exact h.lose c _
  | failed => exact (h.withStream _).lose c _
  | completed => exact h.withStream _

theorem Books.after {hooked : Bool} {b : Bridge σ} (h : b.Books hooked) (cs : List Call) :
    (b.after cs).Books hooked := by
  induction cs generalizing b with
  | nil => exact h
  | cons c cs ih => exact ih (h.perform c)

/-! ### What is counted -/

/-- A stream that was given up is never touched again. -/
theorem perform_of_broken {b : Bridge σ} (h : b.broken = true) (c : Call) :
    (b.perform c).state.broken = true ∧ (b.perform c).state.stream = b.stream := by
  have haccess := b.access_perform c
  generalize b.perform c = o at haccess
  cases haccess with
  | refused => exact ⟨h, rfl⟩
  | abandoned => exact ⟨rfl, rfl⟩
  | failed _ hintact => cases h.symm.trans hintact
  | completed _ hintact => cases h.symm.trans hintact

theorem after_of_broken {b : Bridge σ} (h : b.broken = true) (cs : List Call) :
    (b.after cs).broken = true ∧ (b.after cs).stream = b.stream := by
  induction cs generalizing b with
  | nil => exact ⟨h, rfl⟩
  | cons c cs ih =>
    obtain ⟨hbroken, hstream⟩ := perform_of_broken h c
    obtain ⟨hbroken', hstream'⟩ := ih hbroken
    exact ⟨hbroken', hstream'.trans hstream⟩

theorem broken_perform_iff (b : Bridge σ) (c : Call) :
    (b.perform c).state.broken = true ↔ b.broken = true ∨ b.Fails c := by
  have haccess := b.access_perform c
  generalize b.perform c = o at haccess
  cases haccess with
  | refused hplace =>
    refine ⟨.inl, fun h => h.elim id ?_⟩
    rintro ⟨-, a, _, _, ha, -⟩
    cases hplace.symm.trans ha
  | abandoned _ hbroken => exact ⟨fun _ => .inl hbroken, fun _ => rfl⟩
  | failed hplace hintact hexchange =>
    exact ⟨fun _ => .inr ⟨hintact, _, _, _, hplace, hexchange⟩, fun _ => rfl⟩
  | completed hplace hintact hexchange =>
    refine ⟨.inl, fun h => h.elim id ?_⟩
    rintro ⟨-, a, e, stream, ha, he⟩
    cases hplace.symm.trans ha
    cases hexchange.symm.trans he

/-- A run breaks the bridge exactly if the exchange of one of its accesses fails. -/
theorem broken_after_iff (b : Bridge σ) (cs : List Call) :
    (b.after cs).broken = true ↔
      b.broken = true ∨ ∃ pre c post, cs = pre ++ c :: post ∧ (b.after pre).Fails c := by
  induction cs generalizing b with
  | nil =>
    refine ⟨.inl, fun h => h.elim id ?_⟩
    rintro ⟨pre, c, post, hsplit, -⟩
    cases pre <;> cases hsplit
  | cons c cs ih =>
    -- the exchange that fails is that of the first access, or lies in the rest of the run
    rw [after_cons, ih, broken_perform_iff, or_assoc]
    refine or_congr_right ⟨?_, ?_⟩
    · rintro (hfails | ⟨pre, d, post, rfl, hfails⟩)
      · exact ⟨[], c, cs, rfl, hfails⟩
      · exact ⟨c :: pre, d, post, rfl, hfails⟩
    · rintro ⟨pre, d, post, hsplit, hfails⟩
      cases pre with
      | nil =>
        cases hsplit
        exact .inl hfails
      | cons _ pre =>
        cases hsplit
        exact .inr ⟨pre, d, post, rfl, hfails⟩

/-- What a valid access comes to. -/
structure Settles (b : Bridge σ) (c : Call) (o : Outcome (Bridge σ) Answer) : Prop where
  answered : ∃ reply, o.answer = .ok reply
  faults_eq : o.state.faults = b.faults + if o.state.broken then 1 else 0
  log_eq : ∃ event, o.log = [event] ∧ event.level = if o.state.broken then .error else .debug
  fallback : o.state.broken = true → o.answer = .ok c.operation.fallback

theorem settles_perform {b : Bridge σ} {c : Call} (h : c.Valid) : b.Settles c (b.perform c) := by
  have haccess := b.access_perform c
  generalize b.perform c = o at haccess
  cases haccess with
  | refused hplace => exact absurd h (Call.not_valid_of_place hplace)
  | abandoned => exact ⟨⟨_, rfl⟩, rfl, ⟨_, rfl, rfl⟩, fun _ => rfl⟩
  | failed => exact ⟨⟨_, rfl⟩, rfl, ⟨_, rfl, rfl⟩, fun _ => rfl⟩
  | completed _ hintact _ =>
    refine ⟨⟨_, rfl⟩, ?_, ⟨_, rfl, ?_⟩, fun hbroken => ?_⟩
    · simp only [hintact]
      rfl
    · simp only [hintact]
      unfold Call.report
      split <;> rfl
    · cases hintact.symm.trans hbroken

theorem perform_of_not_valid {b : Bridge σ} {c : Call} (h : ¬c.Valid) :
    (∃ e, (b.perform c).answer = .error e) ∧ (b.perform c).state = b ∧
      ∀ event ∈ (b.perform c).log, event.level ≠ .error := by
  cases hplace : Window.place c.address c.size with
  | ok a => exact absurd (Call.valid_of_place hplace) h
  | error e =>
    rw [perform_of_refused hplace]
    refine ⟨⟨e, rfl⟩, rfl, fun event hmem => ?_⟩
    cases e <;> simp_all [refusalEvents, Event.level]

/-! ### The log -/

def errors (log : List Event) : Nat :=
  log.countP fun event => event.level = .error

theorem errors_perform (b : Bridge σ) (c : Call) :
    (b.perform c).state.faults = b.faults + errors (b.perform c).log := by
  by_cases hvalid : c.Valid
  · obtain ⟨-, hfaults, ⟨event, hlog, hlevel⟩, -⟩ := settles_perform (b := b) hvalid
    rw [hfaults, hlog]
    cases hbroken : (b.perform c).state.broken <;> simp [errors, hlevel, hbroken]
  · obtain ⟨-, hstate, hlog⟩ := perform_of_not_valid (b := b) hvalid
    have hnone : errors (b.perform c).log = 0 := by
      rw [errors, List.countP_eq_zero]
      intro event hmem
      simpa using hlog event hmem
    rw [hstate, hnone]
    rfl

theorem errors_performAll (b : Bridge σ) (cs : List Call) :
    (b.after cs).faults = b.faults + errors ((b.performAll cs).flatMap Outcome.log) := by
  induction cs generalizing b with
  | nil => rfl
  | cons c cs ih =>
    rw [after_cons, ih, errors_perform]
    simp only [performAll, List.flatMap_cons, errors, List.countP_append, Nat.add_assoc]

theorem faults_after_le (b : Bridge σ) (cs : List Call) :
    (b.after cs).faults ≤ b.faults + cs.length := by
  induction cs generalizing b with
  | nil => exact Nat.le_refl _
  | cons c cs ih =>
    have hstep : (b.perform c).state.faults ≤ b.faults + 1 := by
      by_cases hvalid : c.Valid
      · rw [(settles_perform hvalid).faults_eq]
        split <;> omega
      · rw [(perform_of_not_valid hvalid).2.1]
        omega
    have hrest := ih (b.perform c).state
    rw [after_cons, List.length_cons]
    omega

/-- A valid access is completed and reported as such, or it is counted, falls back and is reported as
an error. -/
theorem completed_or_counted (b : Bridge σ) {c : Call} (h : c.Valid) :
    ∃ reply event, (b.perform c).answer = .ok reply ∧ (b.perform c).log = [event] ∧
      ((b.perform c).state.faults = b.faults ∧ event.level = .debug ∨
        (b.perform c).state.faults = b.faults + 1 ∧ event.level = .error ∧
          reply = c.operation.fallback) := by
  obtain ⟨⟨reply, hreply⟩, hfaults, ⟨event, hlog, hlevel⟩, hfallback⟩ :=
    settles_perform (b := b) h
  refine ⟨reply, event, hreply, hlog, ?_⟩
  cases hbroken : (b.perform c).state.broken with
  | false =>
    rw [hbroken] at hfaults hlevel
    exact .inl ⟨hfaults, hlevel⟩
  | true =>
    rw [hbroken] at hfaults hlevel
    cases hreply.symm.trans (hfallback hbroken)
    exact .inr ⟨hfaults, hlevel, rfl⟩

theorem faults_perform_iff (b : Bridge σ) (c : Call) :
    (b.perform c).state.faults = b.faults + 1 ↔ c.Valid ∧ (b.perform c).state.broken = true := by
  by_cases hvalid : c.Valid
  · rw [(settles_perform hvalid).faults_eq]
    cases (b.perform c).state.broken <;> simp [hvalid]
  · rw [(perform_of_not_valid hvalid).2.1]
    simp [hvalid]

/-- An access is counted exactly if it is valid and its exchange, or that of an access before it, is
the first to fail. -/
theorem counted_iff {hooked : Bool} {b : Bridge σ} (hbooks : b.Books hooked) (hfresh : b.faults = 0)
    (cs : List Call) (c : Call) :
    ((b.after cs).perform c).state.faults = (b.after cs).faults + 1 ↔
      c.Valid ∧ ∃ pre d post, cs ++ [c] = pre ++ d :: post ∧
        (b.after pre).faults = 0 ∧ (b.after pre).Fails d := by
  have hintact : ¬b.broken = true := by
    rw [hbooks.broken_eq_false_iff.mpr hfresh]
    exact Bool.false_ne_true
  -- the bridge behind the access is broken exactly if an exchange failed up to there
  have hbroken := b.broken_after_iff (cs ++ [c])
  rw [after_append, or_iff_right hintact] at hbroken
  rw [faults_perform_iff]
  refine and_congr_right fun _ => hbroken.trans ?_
  constructor
  · rintro ⟨pre, d, post, hsplit, hfails⟩
    exact ⟨pre, d, post, hsplit, (hbooks.after pre).broken_eq_false_iff.mp hfails.1, hfails⟩
  · rintro ⟨pre, d, post, hsplit, -, hfails⟩
    exact ⟨pre, d, post, hsplit, hfails⟩

/-- The accounts of a fresh bridge with a shutdown hook, after any accesses and at the next one. The
counter tells whether the stream was given up, and the hook ran once if so. A refused access changes
nothing. A valid one gets an answer and reports one thing; it is counted exactly if its exchange is
the first that fails, or comes after the first that failed. Each counted access is an error in the
log. Behind the first the stream stays as it is, and no call is made on it. -/
theorem accounting (stream : σ) (cs : List Call) :
    let fresh : Bridge σ := { stream := stream, hooked := true }
    let recorded : Bridge (Recorded σ) := { stream := { stream := stream }, hooked := true }
    let b := fresh.after cs
    (b.broken = true ↔ 1 ≤ b.faults) ∧
      b.hookCalls = (if b.broken then 1 else 0) ∧
      b.faults ≤ cs.length ∧
      errors ((fresh.performAll cs).flatMap Outcome.log) = b.faults ∧
      (1 ≤ b.faults → ∀ later, (b.after later).stream = b.stream ∧
        (recorded.after (cs ++ later)).stream.calls = (recorded.after cs).stream.calls) ∧
      ∀ c, let o := b.perform c
        (¬c.Valid → (∃ e, o.answer = .error e) ∧ o.state = b) ∧
        (c.Valid → ∃ reply event, o.answer = .ok reply ∧ o.log = [event] ∧
          (o.state.faults = b.faults ∧ event.level = .debug ∨
            o.state.faults = b.faults + 1 ∧ event.level = .error ∧
              reply = c.operation.fallback)) ∧
        (o.state.faults = b.faults + 1 ↔
          c.Valid ∧ ∃ pre d post, cs ++ [c] = pre ++ d :: post ∧
            (fresh.after pre).faults = 0 ∧ (fresh.after pre).Fails d) := by
  intro fresh recorded b
  have hfresh : fresh.Books true := books_fresh stream true
  have hbooks : b.Books true := hfresh.after cs
  refine ⟨hbooks.broken_iff, hbooks.hookCalls_eq, ?_, ?_, fun hfaults later => ?_, fun c => ?_⟩
  · have hle := fresh.faults_after_le cs
    rwa [Nat.zero_add] at hle
  · have herrors := fresh.errors_performAll cs
    rw [Nat.zero_add] at herrors
    exact herrors.symm
  · have hbroken := hbooks.broken_iff.mpr hfaults
    refine ⟨(after_of_broken hbroken later).2, ?_⟩
    have hplain : b = (recorded.after cs).unrecorded := recorded.after_unrecorded cs
    have hrecorded : (recorded.after cs).broken = true := by
      rw [hplain] at hbroken
      exact hbroken
    rw [after_append, (after_of_broken hrecorded later).2]
  · refine ⟨fun hvalid => ?_, b.completed_or_counted, counted_iff hfresh rfl cs c⟩
    obtain ⟨hanswer, hstate, -⟩ := perform_of_not_valid (b := b) hvalid
    exact ⟨hanswer, hstate⟩

/-- A write succeeds, and the read behind it finds the stream closed. -/
theorem accounting_closed_stream :
    let stream : Script := { reads := [], writes := [], flushes := [] }
    let cs : List Call := [.write 0 1 0x41, .read 4 4, .read 0x1000 1, .write 0 1 0x42]
    let fresh : Bridge Script := { stream := stream, hooked := true }
    (fresh.after cs).faults = 2 ∧ (fresh.after cs).broken = true ∧ (fresh.after cs).hookCalls = 1 ∧
      errors ((fresh.performAll cs).flatMap Outcome.log) = 2 ∧
      ∀ later, ((fresh.after cs).after later).stream = (fresh.after cs).stream := by
  intro stream cs fresh
  have hfaults : (fresh.after cs).faults = 2 := by
    simp only [fresh, cs, stream]
    cbv
  obtain ⟨hbroken, hcalls, -, herrors, hstream, -⟩ := accounting stream cs
  have hcounted : 1 ≤ (fresh.after cs).faults := by
    rw [hfaults]
    decide
  refine ⟨hfaults, hbroken.mpr hcounted, ?_, herrors.trans hfaults, fun later => ?_⟩
  · rw [hcalls, if_pos (hbroken.mpr hcounted)]
  · exact (hstream hcounted later).1

end Bridge

end RemoteRegisters
