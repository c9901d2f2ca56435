import RemoteRegisters.Proofs.Bridge.Alignment
import RemoteRegisters.Proofs.Demo.Driving

/-!
# What the demo sends and what it has been answered

Over a scripted stream the demo sends the frame that enables the device and then,
for each byte of its message, as many frames that read the status as it takes
until the answer says ready, and the frame of the byte. `Demo.Progress` says how
far it has come. At any time the bytes that the stream has taken are the frames of
some progress and a part of the next one, and the data that it has delivered are
the answers of that progress and a part of the next one (`Demo.course_drive`).

## Main definitions

- `Demo.Round` — what one byte of the message takes
- `Demo.Progress` — the rounds that are done, and how far the present one is
- `Demo.Progress.Exchanged` — a stream has taken and delivered what belongs to a progress
- `Demo.Course` — where the demo stands, with its stream intact or lost
-/

namespace RemoteRegisters

/-- A completed exchange takes the value that answers it, in its width. -/
theorem Call.answer_of_completed {c : Call} {a : Placement} {s s' : Script} {value : Option UInt32}
    (h : c.exchange a s = (.ok value, s')) :
    s.undelivered = (value.toList.flatMap fun v => encodeValue v a.width) ++ s'.undelivered ∧
      (value.isSome = true ↔ c.operation = .read) := by
  unfold exchange at h
  split at h
  · cases h
  · rename_i stream hsend
    have hsame := undelivered_of_send hsend
    split at h
    · rename_i hop
      cases h
      exact ⟨hsame.symm, by simp [hop]⟩
    · rename_i hop
      split at h
      · cases h
      · rename_i hreceive
        cases h
        obtain ⟨got, htaken, hends⟩ := Incoming.ends_collect hreceive
        cases hends with
        | whole hlen =>
          have hgot : encodeValue (valueOfBytes got) a.width = got := encodeValue_valueOfBytes hlen
          refine ⟨?_, by simp [hop]⟩
          rw [← hsame, htaken]
          simp only [Incoming.ofLength, List.nil_append, Option.toList_some, List.flatMap_cons,
            List.flatMap_nil, List.append_nil, hgot]

theorem Request.answerLength_le_four (r : Request) : r.answerLength ≤ 4 := by
  cases r with
  | read addr w => exact w.bytes_le_four
  | write addr w value => exact Nat.zero_le 4

theorem Request.Cut.lt_four {r : Request} {s : Script} {got : Nat} (h : r.Cut s got) : got < 4 := by
  cases h with
  | unsent => decide
  | unanswered _ hlt => exact Nat.lt_of_lt_of_le hlt r.answerLength_le_four

namespace Demo

/-! ### Rounds -/

/-- The request that enables the device. -/
def enable : Request :=
  .write RegisterMap.control .word 1

/-- The request for the status. -/
def poll : Request :=
  .read RegisterMap.status .word

/-- The request that transmits a byte. -/
def put (byte : UInt8) : Request :=
  .write RegisterMap.txData .byte byte.toUInt32

/-- The request of the access that the demo makes next. -/
def Stage.request? : Stage → Option Request
  | enabling _ => some enable
  | polling _ _ => some poll
  | sending next _ => some (put next)
  | done => none
  | failed _ => none

/-- The status says that the transmitter is ready. -/
def Ready (answer : UInt32) : Prop :=
  (StatusFlags.mk answer).txReady = true

instance : DecidablePred Ready :=
  fun answer => inferInstanceAs (Decidable ((StatusFlags.mk answer).txReady = true))

/-- What one byte of a message takes: the answers before the transmitter is ready, the answer that says
so, and the byte. -/
structure Round where
  waits : List UInt32
  ready : UInt32
  byte : UInt8
  deriving DecidableEq, Repr

namespace Round

def answers (r : Round) : List UInt32 :=
  r.waits ++ [r.ready]

def requests (r : Round) : List Request :=
  (r.answers.map fun _ => poll) ++ [put r.byte]

/-- The last answer says that the transmitter is ready, and those before it do not. -/
structure Proper (r : Round) : Prop where
  waits : ∀ answer ∈ r.waits, ¬Ready answer
  ready : Ready r.ready

end Round

/-- How far the demo has come with what was sent and answered in full. -/
inductive Progress where
  | starting
  /-- The device is enabled and some rounds are done, and in the next one some answers have come. -/
  | polling (rounds : List Round) (waits : List UInt32)
  /-- The transmitter is ready for the byte of the last round. -/
  | sending (rounds : List Round) (last : Round)
  deriving DecidableEq, Repr

namespace Progress

/-- The requests that were sent and answered. -/
def completed : Progress → List Request
  | starting => []
  | polling rounds waits => enable :: (rounds.flatMap Round.requests ++ waits.map fun _ => poll)
  | sending rounds last =>
      enable :: (rounds.flatMap Round.requests ++ last.answers.map fun _ => poll)

/-- The request that comes next. -/
def next : Progress → Request
  | starting => enable
  | polling _ _ => poll
  | sending _ last => put last.byte

def answers : Progress → List UInt32
  | starting => []
  | polling rounds waits => rounds.flatMap Round.answers ++ waits
  | sending rounds last => rounds.flatMap Round.answers ++ last.answers

/-- The bytes of the message that the transmitter was ready for. -/
def bytes : Progress → List UInt8
  | starting => []
  | polling rounds _ => rounds.map Round.byte
  | sending rounds last => rounds.map Round.byte ++ [last.byte]

/-- Each byte is preceded by answers of which the last one says ready, and no other does. -/
def Proper : Progress → Prop
  | starting => True
  | polling rounds waits => (∀ r ∈ rounds, r.Proper) ∧ ∀ answer ∈ waits, ¬Ready answer
  | sending rounds last => (∀ r ∈ rounds, r.Proper) ∧ last.Proper

/-- From one state of a script to another, the frames of a progress were taken and a part of the next
one, and its answers were delivered and a part of one more. -/
structure Exchanged (p : Progress) (s t : Script) (part got : List UInt8) : Prop where
  sent_eq : t.sent = s.sent ++ p.completed.flatMap Request.encode ++ part
  front : part <+: p.next.encode
  data_eq : s.undelivered = (p.answers.flatMap fun v => encodeValue v .word) ++ got ++ t.undelivered
  short : got.length < 4

theorem exchanged_starting (s : Script) : Exchanged .starting s s [] [] where
  sent_eq := by simp [completed]
  front := List.nil_prefix
  data_eq := rfl
  short := by decide

end Progress

/-- Where the demo stands with a message, as long as no access has failed. -/
inductive At (message : List UInt8) : Progress → Stage → Prop where
  | starting : At message .starting (.enabling message)
  | polling {rounds : List Round} {waits : List UInt32} {next : UInt8} {later : List UInt8} :
      message = rounds.map Round.byte ++ next :: later →
        At message (.polling rounds waits) (.polling next later)
  | sending {rounds : List Round} {last : Round} {later : List UInt8} :
      message = rounds.map Round.byte ++ last.byte :: later →
        At message (.sending rounds last) (.sending last.byte later)
  | done {rounds : List Round} :
      message = rounds.map Round.byte → At message (.polling rounds []) .done

/-- Once an access has failed the demo reads the status or has failed itself. -/
def Stage.AfterFault (stage : Stage) : Prop :=
  (∃ next later, stage = .polling next later) ∨ ∃ trouble, stage = .failed trouble

/-- Where the demo stands and what has become of its bridge. -/
inductive Course (message : List UInt8) (s : Script) : Stage → Bridge Script → Prop where
  | intact {p : Progress} {stage : Stage} {b : Bridge Script} (hat : At message p stage)
      (hproper : p.Proper) (hintact : b.broken = false) (hfaults : b.faults = 0)
      (h : p.Exchanged s b.stream [] []) : Course message s stage b
  | lost {p : Progress} {stage : Stage} {b : Bridge Script} {part got : List UInt8}
      (hproper : p.Proper) (hbytes : p.bytes <+: message) (hbroken : b.broken = true)
      (hfaults : b.faults ≠ 0) (hstage : stage.AfterFault)
      (h : p.Exchanged s b.stream part got) : Course message s stage b

/-! ### One access -/

section Step

variable {message : List UInt8} {s : Script} {stage : Stage} {p : Progress} {b : Bridge Script}
  {c : Call}

/-- The bytes that the transmitter was ready for are those at the front of the message. -/
theorem At.bytes_prefix (h : At message p stage) : p.bytes <+: message := by
  cases h with
  | starting => exact List.nil_prefix
  | polling h => exact ⟨_, h.symm⟩
  | @sending rounds last later h =>
    refine ⟨later, ?_⟩
    rw [h, Progress.bytes, List.append_assoc]
    rfl
  | done h => exact ⟨[], by rw [List.append_nil]; exact h.symm⟩

theorem at_proceed {rounds : List Round} {later : List UInt8}
    (h : message = rounds.map Round.byte ++ later) :
    At message (.polling rounds []) (.proceed 0 later) := by
  cases later with
  | nil => exact .done (h.trans (List.append_nil _))
  | cons next later => exact .polling h

theorem Stage.AfterFault.ne_done (h : stage.AfterFault) : stage ≠ .done := by
  rintro rfl
  obtain ⟨next, later, hpolling⟩ | ⟨trouble, hfailed⟩ := h
  · cases hpolling
  · cases hfailed

theorem Stage.afterFault_proceed {faults : Nat} (hfaults : faults ≠ 0) (later : List UInt8) :
    (proceed faults later).AfterFault := by
  cases later with
  | nil => exact .inr ⟨.lostSending, if_neg hfaults⟩
  | cons next rest => exact .inl ⟨next, rest, rfl⟩

/-- What the demo makes of a status. -/
theorem resume_polling (next : UInt8) (later : List UInt8) (v : UInt32) (faults : Nat) :
    Stage.resume (.polling next later) (.ok ((some v).map UInt32.toUInt64)) faults =
      if Ready v then .sending next later
      else if faults = 0 then .polling next later else .failed .lostPolling := by
  simp only [Stage.resume, Option.map_some, Option.getD_some, UInt32.toUInt32_toUInt64, Ready]
  rfl

/-- The access that the demo makes next is let through. -/
theorem Stage.placed_of_call? (hc : stage.call? 0 = some c) :
    ∃ a, Window.place c.address c.size = .ok a ∧ stage.request? = some (c.request a) ∧
      (c.operation = .read → a.width = .word) := by
  cases stage with
  | enabling =>
    cases hc
    exact ⟨⟨RegisterMap.control, .word⟩, rfl, rfl, fun _ => rfl⟩
  | polling =>
    cases hc
    exact ⟨⟨RegisterMap.status, .word⟩, rfl, rfl, fun _ => rfl⟩
  | sending next =>
    cases hc
    refine ⟨⟨RegisterMap.txData, .byte⟩, rfl, ?_, fun hread => by cases hread⟩
    have hbyte : Width.byte.truncate next.toUInt64 = next.toUInt32 := by
      apply UInt32.toNat_inj.mp
      rw [Width.toNat_truncate, UInt8.toNat_toUInt64, UInt8.toNat_toUInt32]
      exact Nat.mod_eq_of_lt next.toNat_lt
    exact congrArg (fun value => some (Request.write RegisterMap.txData .byte value)) hbyte.symm
  | done => cases hc
  | failed => cases hc

theorem At.request?_eq (hat : At message p stage) (hc : stage.call? 0 = some c) :
    stage.request? = some p.next := by
  cases hat with
  | starting => rfl
  | polling => rfl
  | sending => rfl
  | done => cases hc

/-- The access that sends the next request fails, and the stream is given up, or it succeeds, and then
any progress fits that is one request further. -/
theorem Progress.Exchanged.perform {a : Placement} (h : p.Exchanged s b.stream [] [])
    (hplace : Window.place c.address c.size = .ok a) (hrequest : c.request a = p.next)
    (hword : c.operation = .read → a.width = .word) (hintact : b.broken = false)
    (hfaults : b.faults = 0) :
    ((b.perform c).answer = .ok c.operation.fallback ∧ (b.perform c).state.broken = true ∧
        (b.perform c).state.faults ≠ 0 ∧
        ∃ part got, p.Exchanged s (b.perform c).state.stream part got) ∨
      ∃ value : Option UInt32, (b.perform c).answer = .ok (value.map UInt32.toUInt64) ∧
        (value.isSome = true ↔ c.operation = .read) ∧ (b.perform c).state.broken = false ∧
        (b.perform c).state.faults = 0 ∧
        ∀ p' : Progress, p'.completed = p.completed ++ [p.next] →
          p'.answers = p.answers ++ value.toList → p'.Exchanged s (b.perform c).state.stream [] [] := by
  have hdata := h.data_eq
  have hsent := h.sent_eq
  rw [List.append_nil] at hdata hsent
  have haccess := b.access_perform c
  generalize b.perform c = o at haccess
  cases haccess with
  | refused hrefused => cases hplace.symm.trans hrefused
  | abandoned _ hbroken => cases hintact.symm.trans hbroken
  | failed hplace' _ hexchange =>
    cases hplace.symm.trans hplace'
    obtain ⟨part, hfront, hpart, -⟩ := Call.sent_exchange hexchange
    obtain ⟨got, htaken, hcut⟩ := Call.taken_of_failed hexchange
    refine .inl ⟨rfl, rfl, Nat.succ_ne_zero _, part, got, ?_, ?_, ?_, hcut.lt_four⟩
    · rw [← hsent]
      exact hpart
    · rwa [← hrequest]
    · rw [hdata, htaken, List.append_assoc]
      rfl
  | @completed _ value stream hplace' _ hexchange =>
    cases hplace.symm.trans hplace'
    obtain ⟨part, -, hpart, hall⟩ := Call.sent_exchange hexchange
    obtain ⟨htaken, hsome⟩ := Call.answer_of_completed hexchange
    refine .inr ⟨value, rfl, hsome, hintact, hfaults, fun p' hcompleted hanswers => ?_⟩
    have hvalue : (value.toList.flatMap fun v => encodeValue v a.width) =
        value.toList.flatMap fun v => encodeValue v .word := by
      cases value with
      | none => rfl
      | some v => rw [hword (hsome.mp rfl)]
    refine ⟨?_, List.nil_prefix, ?_, by decide⟩
    · rw [List.append_nil, hcompleted, List.flatMap_append, ← List.append_assoc, ← hsent,
        List.flatMap_singleton, ← hrequest, ← hall value rfl]
      exact hpart
    · rw [List.append_nil, hanswers, List.flatMap_append, hdata, htaken, hvalue, List.append_assoc]

/-- An access brings the demo from one place of its course to another. -/
theorem Course.step (h : Course message s stage b) (hc : stage.call? 0 = some c) :
    Course message s (stage.resume (b.perform c).answer (b.perform c).state.faults)
      (b.perform c).state := by
  cases h with
  | @lost p _ _ part got hproper hbytes hbroken hfaults hstage hexchanged =>
    obtain ⟨next, later, rfl⟩ | ⟨trouble, rfl⟩ := hstage
    · -- the status cannot be read any more, and then the demo fails
      cases hc
      have hlost := Bridge.perform_of_access
        (.abandoned (b := b) (c := .read (0 + RegisterMap.status.toUInt64) 4)
          (a := ⟨RegisterMap.status, .word⟩) rfl hbroken)
      rw [hlost]
      exact .lost hproper hbytes rfl (Nat.succ_ne_zero _) (.inr ⟨.lostPolling, rfl⟩) hexchanged
    · cases hc
  | @intact p _ _ hat hproper hintact hfaults hexchanged =>
    obtain ⟨a, hplace, hstage, hword⟩ := Stage.placed_of_call? hc
    have hrequest : c.request a = p.next :=
      Option.some_inj.mp (hstage.symm.trans (hat.request?_eq hc))
    obtain ⟨hanswer, hbroken, hcounted, part, got, hlater⟩ |
      ⟨value, hanswer, hsome, hintact', hnone, hlater⟩ :=
      hexchanged.perform hplace hrequest hword hintact hfaults
    · refine .lost hproper hat.bytes_prefix hbroken hcounted ?_ hlater
      rw [hanswer]
      cases hat with
      | starting => exact Stage.afterFault_proceed hcounted message
      | polling =>
        cases hc
        exact .inr ⟨.lostPolling, if_neg hcounted⟩
      | sending => exact Stage.afterFault_proceed hcounted _
      | done => cases hc
    · rw [hanswer, hnone]
      cases hat with
      | starting =>
        cases hc
        obtain rfl : value = none := by simpa [Call.write] using hsome
        have hat' : At message (.polling [] []) (.proceed 0 message) := at_proceed rfl
        have hproper' : (Progress.polling [] []).Proper :=
          ⟨List.forall_mem_nil _, List.forall_mem_nil _⟩
        exact .intact hat' hproper' hintact' hnone (hlater _ rfl rfl)
      | @polling rounds waits next later hmessage =>
        cases hc
        obtain ⟨v, rfl⟩ := Option.isSome_iff_exists.mp (hsome.mpr rfl)
        obtain ⟨hrounds, hwaits⟩ := hproper
        rw [resume_polling]
        by_cases hready : Ready v
        · rw [if_pos hready]
          have hat' : At message (.sending rounds ⟨waits, v, next⟩) (.sending next later) :=
            .sending hmessage
          refine .intact hat' ⟨hrounds, hwaits, hready⟩ hintact' hnone (hlater _ ?_ ?_)
          · simp [Progress.completed, Progress.next, Round.answers]
          · simp [Progress.answers, Round.answers]
        · rw [if_neg hready, if_pos rfl]
          refine .intact (.polling hmessage) ⟨hrounds, List.forall_mem_append.mpr ⟨hwaits, ?_⟩⟩
            hintact' hnone (hlater (.polling rounds (waits ++ [v])) ?_ ?_)
          · exact List.forall_mem_singleton.mpr hready
          · simp [Progress.completed, Progress.next]
          · simp [Progress.answers]
      | @sending rounds last later hmessage =>
        cases hc
        obtain rfl : value = none := by simpa [Call.write] using hsome
        have hat' : At message (.polling (rounds ++ [last]) []) (.proceed 0 later) :=
          at_proceed (by rw [hmessage, List.map_append, List.append_assoc]; rfl)
        have hproper' : (Progress.polling (rounds ++ [last]) []).Proper :=
          ⟨List.forall_mem_append.mpr ⟨hproper.1, List.forall_mem_singleton.mpr hproper.2⟩,
            List.forall_mem_nil _⟩
        refine .intact hat' hproper' hintact' hnone (hlater _ ?_ ?_)
        · simp [Progress.completed, Progress.next, Round.requests]
        · simp [Progress.answers]
      | done => cases hc

/-- The demo keeps to its course, however many accesses it makes. -/
theorem Course.drive (h : Course message s stage b) (accesses : Nat) :
    Course message s (drive accesses stage b).1 (drive accesses stage b).2 := by
  induction accesses generalizing stage b with
  | zero => exact h
  | succ accesses ih =>
    cases hc : stage.call? 0 with
    | none =>
      rw [drive_of_over ((Stage.over_iff 0).mpr hc)]
      exact h
    | some c =>
      rw [drive_of_call? hc]
      exact ih (h.step hc)

end Step

/-- The course of the demo from its start over a fresh bridge. -/
theorem course_drive (s : Script) (hooked : Bool) (message : List UInt8) (accesses : Nat) :
    let course := drive accesses (.enabling message) { stream := s, hooked := hooked }
    Course message s course.1 course.2 :=
  Course.drive (.intact .starting trivial rfl rfl (Progress.exchanged_starting s)) accesses

end Demo

end RemoteRegisters
