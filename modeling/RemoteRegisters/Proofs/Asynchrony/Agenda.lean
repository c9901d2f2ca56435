import RemoteRegisters.Proofs.Asynchrony.Suspended
import RemoteRegisters.Proofs.Bridge.Delivery
import RemoteRegisters.Proofs.Register.Direct

/-!
# The bridge as a party to a conversation

A bridge that works through a list of accesses keeps an `Agenda`: what is
answered, what it is at, and what is to come. Seen as a dialogue, an agenda sends
the request of each access that is not refused and receives the response to it if
it is a read. Over every byte stream this is the dialogue that `Bridge.performAll`
conducts (`Agenda.conducts`).

## Main definitions

- `PlacedCall` — an access that lies in the window, with its place
- `Agenda` — how far a bridge has come with its accesses
- `Agenda.started` — the requests of the accesses that the bridge has started
- `Agenda.Keeps` — the answers are those of direct accesses, and no access is lost
- `Agenda.owed` — the response to the access that the bridge is at
-/

namespace RemoteRegisters

/-- An access that lies in the window. -/
structure PlacedCall where
  call : Call
  placement : Placement
  placed : Window.place call.address call.size = .ok placement

def PlacedCall.request (p : PlacedCall) : Request :=
  p.call.request p.placement

/-- What a bridge is at. -/
inductive Agenda.Stage where
  | finished
  | requesting (p : PlacedCall) (pending : List Call)
  /-- The request of a read is sent, and its response has to come. -/
  | awaiting (p : PlacedCall) (isRead : p.call.operation = .read) (pending : List Call)

/-- How far a bridge has come with a list of accesses. -/
structure Agenda where
  done : List Call
  answers : List Answer
  stage : Agenda.Stage

namespace Agenda

/-- The state in which the next access that is not refused is started. -/
def begin (done : List Call) (answers : List Answer) : List Call → Agenda
  | [] => ⟨done, answers, .finished⟩
  | c :: cs =>
      match h : Window.place c.address c.size with
      | .error e => begin (done ++ [c]) (answers ++ [.error e]) cs
      | .ok a => ⟨done, answers, .requesting ⟨c, a, h⟩ cs⟩

def ofCalls (cs : List Call) : Agenda :=
  begin [] [] cs

/-- The access is answered, and the next one is started. -/
def conclude (g : Agenda) (p : PlacedCall) (value : Option UInt32) (pending : List Call) :
    Agenda :=
  begin (g.done ++ [p.call]) (g.answers ++ [.ok (value.map UInt32.toUInt64)]) pending

def turn (g : Agenda) : Turn :=
  match g.stage with
  | .finished => .rest
  | .requesting p _ => .send p.request.encode
  | .awaiting p _ _ => .receive p.placement.width.bytes

def proceed (g : Agenda) (bytes : List UInt8) : Agenda :=
  match g.stage with
  | .finished => g
  | .requesting p pending =>
      match h : p.call.operation with
      | .read => { g with stage := .awaiting p h pending }
      | .write _ => g.conclude p none pending
  | .awaiting p _ pending => g.conclude p (some (valueOfBytes bytes)) pending

variable {g : Agenda} {p : PlacedCall} {pending : List Call}

/-- A bridge is at rest, or it sends a request, or it waits for a response. -/
theorem turn_cases (g : Agenda) :
    (g.stage = .finished ∧ g.turn = .rest) ∨
      (∃ p pending, g.stage = .requesting p pending ∧ g.turn = .send p.request.encode) ∨
      ∃ p isRead pending,
        g.stage = .awaiting p isRead pending ∧ g.turn = .receive p.placement.width.bytes := by
  cases hstage : g.stage with
  | finished => exact .inl ⟨rfl, by simp only [turn, hstage]⟩
  | requesting p pending => exact .inr (.inl ⟨p, pending, rfl, by simp only [turn, hstage]⟩)
  | awaiting p isRead pending =>
    exact .inr (.inr ⟨p, isRead, pending, rfl, by simp only [turn, hstage]⟩)

theorem exists_requesting_of_turn {bytes : List UInt8} (h : g.turn = .send bytes) :
    ∃ p pending, g.stage = .requesting p pending := by
  obtain ⟨_, hrest⟩ | ⟨p, pending, hstage, _⟩ | ⟨_, _, _, _, hreceive⟩ := g.turn_cases
  · cases h.symm.trans hrest
  · exact ⟨p, pending, hstage⟩
  · cases h.symm.trans hreceive

theorem exists_awaiting_of_turn {n : Nat} (h : g.turn = .receive n) :
    ∃ p isRead pending, g.stage = .awaiting p isRead pending ∧ n = p.placement.width.bytes := by
  obtain ⟨_, hrest⟩ | ⟨_, _, _, hsend⟩ | ⟨p, isRead, pending, hstage, hreceive⟩ := g.turn_cases
  · cases h.symm.trans hrest
  · cases h.symm.trans hsend
  · exact ⟨p, isRead, pending, hstage, Turn.receive.inj (h.symm.trans hreceive)⟩

theorem proceed_of_read (hstage : g.stage = .requesting p pending)
    (hop : p.call.operation = .read) (bytes : List UInt8) :
    g.proceed bytes = { g with stage := .awaiting p hop pending } := by
  simp only [proceed, hstage]
  split
  · rfl
  · rename_i hwrite
    cases hop.symm.trans hwrite

theorem proceed_of_write {value : UInt64} (hstage : g.stage = .requesting p pending)
    (hop : p.call.operation = .write value) (bytes : List UInt8) :
    g.proceed bytes = g.conclude p none pending := by
  simp only [proceed, hstage]
  split
  · rename_i hread
    cases hread.symm.trans hop
  · rfl

theorem proceed_of_awaiting {isRead : p.call.operation = .read}
    (hstage : g.stage = .awaiting p isRead pending) (bytes : List UInt8) :
    g.proceed bytes = g.conclude p (some (valueOfBytes bytes)) pending := by
  simp only [proceed, hstage]

instance : Dialogue Agenda where
  turn := turn
  proceed := proceed
  receive_pos {g n} h := by
    unfold turn at h
    split at h <;> cases h
    exact Width.bytes_pos _

/-- The request of the access that the bridge is at. -/
def request? (g : Agenda) : Option Request :=
  match g.stage with
  | .finished => none
  | .requesting p _ => some p.request
  | .awaiting p _ _ => some p.request

theorem request?_of_awaiting {isRead : p.call.operation = .read}
    (hstage : g.stage = .awaiting p isRead pending) : g.request? = some p.request := by
  simp only [request?, hstage]

def started (g : Agenda) : List Request :=
  Call.requests g.done ++ g.request?.toList

/-- The accesses that are not answered yet. -/
def left (g : Agenda) : List Call :=
  match g.stage with
  | .finished => []
  | .requesting p pending => p.call :: pending
  | .awaiting p _ pending => p.call :: pending

section Course

variable {σ : Type} [ByteStream σ]

/-- The answers that a fresh bridge gives. -/
def answersOn (stream : σ) (cs : List Call) : List Answer :=
  (({ stream := stream } : Bridge σ).performAll cs).map Outcome.answer

/-- The answers that a bridge gives that has lost the access it was at. -/
def answersLost (stream : σ) (p : PlacedCall) (e : TransferError) (cs : List Call) :
    List Answer :=
  let lost := ({ stream := stream } : Bridge σ).lose p.call e
  lost.answer :: (lost.state.performAll cs).map Outcome.answer

/-- The answers to all accesses, when the bridge works through the rest of them. -/
def course (g : Agenda) (stream : σ) : List Answer :=
  g.answers ++
    match g.stage with
    | .finished => []
    | .requesting p pending => answersOn stream (p.call :: pending)
    | .awaiting p _ pending =>
        match receive stream p.placement.width.bytes with
        | (.ok bytes, stream') =>
            .ok (some (valueOfBytes bytes).toUInt64) :: answersOn stream' pending
        | (.error e, stream') => answersLost stream' p e pending

def failed (g : Agenda) (e : TransferError) (stream : σ) : List Answer :=
  g.answers ++
    match g.stage with
    | .finished => []
    | .requesting p pending => answersLost stream p e pending
    | .awaiting p _ pending => answersLost stream p e pending

theorem course_begin (done : List Call) (answers : List Answer) (cs : List Call) (stream : σ) :
    (begin done answers cs).course stream = answers ++ answersOn stream cs := by
  induction cs generalizing done answers with
  | nil => rfl
  | cons c cs ih =>
    unfold begin
    split
    · rename_i e hplace
      rw [ih, List.append_assoc]
      have hrefused := Bridge.perform_of_refused (b := ({ stream := stream } : Bridge σ)) hplace
      simp only [answersOn, Bridge.performAll, List.map_cons, hrefused]
      rfl
    · rfl

theorem course_conclude (g : Agenda) (p : PlacedCall) (value : Option UInt32)
    (pending : List Call) (stream : σ) :
    (g.conclude p value pending).course stream =
      g.answers ++ (.ok (value.map UInt32.toUInt64) :: answersOn stream pending) := by
  rw [conclude, course_begin, List.append_assoc]
  rfl

/-- The first access on a fresh bridge, by what becomes of its exchange. -/
theorem answersOn_cons (p : PlacedCall) (pending : List Call) (stream : σ) :
    answersOn stream (p.call :: pending) =
      match p.call.exchange p.placement stream with
      | (.ok value, stream') => .ok (value.map UInt32.toUInt64) :: answersOn stream' pending
      | (.error e, stream') => answersLost stream' p e pending := by
  have hperform {o : Outcome (Bridge σ) Answer}
      (h : Bridge.Access { stream := stream } p.call o) :
      answersOn stream (p.call :: pending) =
        o.answer :: (o.state.performAll pending).map Outcome.answer := by
    rw [answersOn, Bridge.performAll, Bridge.perform_of_access h]
    rfl
  split <;> rename_i hexchange
  · rw [hperform (.completed p.placed rfl hexchange)]
    rfl
  · rw [hperform (.failed p.placed rfl hexchange)]
    rfl

theorem course_of_requesting (hstage : g.stage = .requesting p pending) (stream : σ) :
    g.course stream = g.answers ++ answersOn stream (p.call :: pending) := by
  simp only [course, hstage]

theorem course_of_awaiting {isRead : p.call.operation = .read}
    (hstage : g.stage = .awaiting p isRead pending) (stream : σ) :
    g.course stream =
      g.answers ++
        match receive stream p.placement.width.bytes with
        | (.ok bytes, stream') =>
            .ok (some (valueOfBytes bytes).toUInt64) :: answersOn stream' pending
        | (.error e, stream') => answersLost stream' p e pending := by
  simp only [course, hstage]

/-- The dialogue of an agenda is that of the bridge, over every stream. -/
theorem conducts : Suspended.Conducts (course : Agenda → σ → List Answer) failed := by
  intro g stream
  obtain ⟨_, hturn⟩ | ⟨p, pending, hstage, hturn⟩ | ⟨p, isRead, pending, hstage, hturn⟩ :=
    g.turn_cases
  · exact Suspended.resume_enter_of_rest hturn
  · rw [Suspended.resume_enter_of_send hturn, course_of_requesting hstage, answersOn_cons,
      Call.exchange, ← PlacedCall.request]
    obtain ⟨r, stream'⟩ := send stream p.request.encode
    cases r with
    | error e => simp only [failed, hstage]
    | ok _ =>
      cases hop : p.call.operation with
      | read =>
        simp only [Dialogue.proceed, proceed_of_read hstage hop]
        rw [course_of_awaiting rfl]
        obtain ⟨r, stream''⟩ := receive stream' p.placement.width.bytes
        cases r <;> rfl
      | write value =>
        simp only [Dialogue.proceed, proceed_of_write hstage hop]
        exact course_conclude g p none pending stream'
  · rw [Suspended.resume_enter_of_receive hturn, course_of_awaiting hstage]
    obtain ⟨r, stream'⟩ := receive stream p.placement.width.bytes
    cases r with
    | error e => simp only [failed, hstage]
    | ok bytes =>
      simp only [Dialogue.proceed, proceed_of_awaiting hstage]
      exact course_conclude g p (some _) pending stream'

/-- However the calls of a bridge fall, what is left of its accesses comes to what it answers when it
makes them at one go. -/
theorem answersOn_of_advances {cs : List Call} {p : Suspended Agenda} {stream stream' : σ}
    (h : Suspended.AdvancesAll (.enter (ofCalls cs)) stream p stream') :
    answersOn stream cs = p.resume course failed stream' := by
  rw [← h.resume_eq conducts, conducts, ofCalls, course_begin]
  rfl

end Course

/-! ### What an agenda accounts for -/

/-- The answers are those that the registers give directly, and no access is lost. -/
structure Keeps (m : RegisterMap) (cs : List Call) (g : Agenda) : Prop where
  answers_eq : g.answers = (RegisterFile.ofMap m).answers g.done
  calls_eq : g.done ++ g.left = cs

/-- A bridge that has finished is done with all accesses. -/
theorem Keeps.done_of_finished {m : RegisterMap} {cs : List Call} (h : g.Keeps m cs)
    (hstage : g.stage = .finished) : g.done = cs := by
  have hcalls := h.calls_eq
  rwa [left, hstage, List.append_nil] at hcalls

/-- The response to the access that the bridge is at, which is empty unless that is a read. -/
def owed (m : RegisterMap) (g : Agenda) : List UInt8 :=
  match g.request? with
  | none => []
  | some q => ((RegisterFile.ofMap m).applyAll (Call.requests g.done)).response q

theorem owed_of_request {m : RegisterMap} {g : Agenda} {q : Request} (h : g.request? = some q) :
    g.owed m = ((RegisterFile.ofMap m).applyAll (Call.requests g.done)).response q := by
  simp only [owed, h]

/-- The bridge waits for the value that the registers hold. -/
theorem owed_of_awaiting {m : RegisterMap} {isRead : p.call.operation = .read}
    (hstage : g.stage = .awaiting p isRead pending) :
    g.owed m = encodeValue (p.placement.width.truncate
      (((RegisterFile.ofMap m).applyAll (Call.requests g.done)).read p.placement.offset
        p.placement.width)) p.placement.width := by
  rw [owed_of_request (request?_of_awaiting hstage), PlacedCall.request, Call.request, isRead]
  rfl

/-- Beginning skips the accesses that are refused. They are answered, and send no request. -/
theorem exists_refused_of_begin (done : List Call) (answers : List Answer) (cs : List Call) :
    ∃ refused errors,
      (begin done answers cs).done = done ++ refused ∧
        (begin done answers cs).answers = answers ++ errors ∧
        refused ++ (begin done answers cs).left = cs ∧ Call.requests refused = [] ∧
        ∀ f : RegisterFile, f.answers refused = errors := by
  induction cs generalizing done answers with
  | nil => exact ⟨[], [], (List.append_nil _).symm, (List.append_nil _).symm, rfl, rfl, fun _ => rfl⟩
  | cons c cs ih =>
    unfold begin
    split
    · rename_i e hplace
      obtain ⟨refused, errors, hdone, hanswers, hleft, hrequests, herrors⟩ :=
        ih (done ++ [c]) (answers ++ [.error e])
      refine ⟨c :: refused, .error e :: errors, ?_, ?_, congrArg (c :: ·) hleft, ?_, fun f => ?_⟩
      · rw [hdone, List.append_assoc]
        rfl
      · rw [hanswers, List.append_assoc]
        rfl
      · rw [Call.requests_cons, Call.request?_of_refused hplace, hrequests]
        rfl
      · rw [RegisterFile.answers, f.accessed_of_refused hplace, herrors, RegisterFile.answer, hplace]
    · exact ⟨[], [], (List.append_nil _).symm, (List.append_nil _).symm, rfl, rfl, fun _ => rfl⟩

theorem requests_begin (done : List Call) (answers : List Answer) (cs : List Call) :
    Call.requests (begin done answers cs).done = Call.requests done := by
  obtain ⟨refused, _, hdone, -, -, hrequests, -⟩ := exists_refused_of_begin done answers cs
  rw [hdone, Call.requests_append, hrequests, List.append_nil]

theorem keeps_begin {m : RegisterMap} {done : List Call} {answers : List Answer}
    (h : answers = (RegisterFile.ofMap m).answers done) (cs : List Call) :
    (begin done answers cs).Keeps m (done ++ cs) := by
  obtain ⟨refused, errors, hdone, hanswers, hleft, -, herrors⟩ :=
    exists_refused_of_begin done answers cs
  constructor
  · rw [hanswers, hdone, RegisterFile.answers_append, herrors, h]
  · rw [hdone, List.append_assoc, hleft]

/-- The transfer with which an agenda begins is the frame of its first request. -/
theorem unsent_begin (done : List Call) (answers : List Answer) (cs : List Call) :
    (Suspended.enter (begin done answers cs)).transfer.unsent =
      (begin done answers cs).request?.toList.flatMap Request.encode := by
  induction cs generalizing done answers with
  | nil => rfl
  | cons c cs ih =>
    unfold begin
    split
    · exact ih _ _
    · exact (List.append_nil _).symm

theorem fit_of_mem_started {g : Agenda} {q : Request} (h : q ∈ g.started) : q.fit = q := by
  obtain hdone | hcurrent := List.mem_append.mp h
  · exact Call.fit_of_mem_requests hdone
  · unfold request? at hcurrent
    split at hcurrent
    · cases hcurrent
    · rw [List.mem_singleton.mp hcurrent]
      exact Call.fit_request _ _
    · rw [List.mem_singleton.mp hcurrent]
      exact Call.fit_request _ _

theorem responses_started (m : RegisterMap) (g : Agenda) :
    (RegisterFile.ofMap m).responses g.started =
      (RegisterFile.ofMap m).responses (Call.requests g.done) ++ g.owed m := by
  rw [started, owed, RegisterFile.responses_append]
  cases g.request? with
  | none => rfl
  | some q => exact congrArg (_ ++ ·) (RegisterFile.responses_singleton _ q)

end Agenda

end RemoteRegisters
