import RemoteRegisters.Proofs.Asynchrony.Suspended
import RemoteRegisters.Proofs.Session.Phases
import RemoteRegisters.Proofs.Session.Transcript

/-!
# The session as a party to a conversation

A session is a dialogue in itself: its phase says which bytes it needs next, or
which it has to send. Over every stream this is the dialogue that `Session.run`
conducts (`Session.conducts`).
-/

namespace RemoteRegisters

namespace Session

def turn (s : Session) : Turn :=
  match s.phase with
  | .ended _ => .rest
  | .responding response => .send response
  | phase => .receive phase.demand

def proceed (s : Session) (bytes : List UInt8) : Session :=
  match s.phase with
  | .responding _ => s.responded
  | _ => s.received bytes

def failed {σ : Type} (s : Session) (e : TransferError) (stream : σ) : Session × σ :=
  match s.phase with
  | .responding _ => (s.responseFailed e, stream)
  | _ => (s.receiveFailed e, stream)

theorem proceed_of_waiting {s : Session} (h : s.phase.distance = 1) (bytes : List UInt8) :
    s.proceed bytes = s.received bytes := by
  obtain hphase | ⟨_, hphase⟩ | ⟨_, _, hphase⟩ := Phase.waiting_cases h <;>
    simp only [proceed, hphase]

theorem failed_of_waiting {σ : Type} {s : Session} (h : s.phase.distance = 1) (e : TransferError)
    (stream : σ) : s.failed e stream = (s.receiveFailed e, stream) := by
  obtain hphase | ⟨_, hphase⟩ | ⟨_, _, hphase⟩ := Phase.waiting_cases h <;>
    simp only [failed, hphase]

/-- A session is over, or it has a response to send, or it waits for bytes. -/
theorem turn_cases (s : Session) :
    (∃ reason, s.phase = .ended reason ∧ s.turn = .rest) ∨
      (∃ response, s.phase = .responding response ∧ s.turn = .send response) ∨
      s.phase.distance = 1 ∧ s.turn = .receive s.phase.demand := by
  cases hphase : s.phase with
  | ended reason => exact .inl ⟨reason, rfl, by simp only [turn, hphase]⟩
  | responding response => exact .inr (.inl ⟨response, rfl, by simp only [turn, hphase]⟩)
  | idle => exact .inr (.inr ⟨rfl, by simp only [turn, hphase]⟩)
  | header kind => exact .inr (.inr ⟨rfl, by simp only [turn, hphase]⟩)
  | payload addr w => exact .inr (.inr ⟨rfl, by simp only [turn, hphase]⟩)

theorem turn_of_waiting {s : Session} (h : s.phase.distance = 1) :
    s.turn = .receive s.phase.demand := by
  obtain hphase | ⟨_, hphase⟩ | ⟨_, _, hphase⟩ := Phase.waiting_cases h <;>
    simp only [turn, hphase]

theorem phase_of_turn_send {s : Session} {bytes : List UInt8} (h : s.turn = .send bytes) :
    s.phase = .responding bytes := by
  obtain ⟨_, _, hrest⟩ | ⟨response, hphase, hsend⟩ | ⟨_, hreceive⟩ := s.turn_cases
  · cases h.symm.trans hrest
  · rw [hphase, Turn.send.inj (h.symm.trans hsend)]
  · cases h.symm.trans hreceive

theorem waiting_of_turn_receive {s : Session} {n : Nat} (h : s.turn = .receive n) :
    s.phase.distance = 1 ∧ n = s.phase.demand := by
  obtain ⟨_, _, hrest⟩ | ⟨_, _, hsend⟩ | ⟨hwait, hreceive⟩ := s.turn_cases
  · cases h.symm.trans hrest
  · cases h.symm.trans hsend
  · exact ⟨hwait, Turn.receive.inj (h.symm.trans hreceive)⟩

instance : Dialogue Session where
  turn := turn
  proceed := proceed
  receive_pos {s n} h := by
    obtain ⟨hwait, hdemand⟩ := waiting_of_turn_receive h
    rw [hdemand]
    exact Phase.demand_pos hwait

/-- A session that waits for bytes has nothing to send. -/
theorem unsent_of_waiting {s : Session} (h : s.phase.distance = 1) :
    (Suspended.enter s).transfer.unsent = [] :=
  congrArg (fun t => t.transfer.unsent) (turn_of_waiting h)

/-- A session that has carried a request out has the response to send. -/
theorem unsent_apply (s : Session) (q : Request) :
    (Suspended.enter (s.apply q)).transfer.unsent = s.registers.response q := by
  cases q <;> rfl

theorem begun_apply (s : Session) (q : Request) : (s.apply q).phase.begun = [] := by
  cases q <;> rfl

theorem turn_apply_ne_rest (s : Session) (q : Request) : (s.apply q).turn ≠ .rest := by
  intro hrest
  cases q <;> cases hrest

theorem turn_ne_rest_of_waiting {s : Session} (h : s.phase.distance = 1) : s.turn ≠ .rest := by
  intro hrest
  cases (turn_of_waiting h).symm.trans hrest

/-- The dialogue of a session is the one that it conducts when it is run. -/
theorem conducts {σ : Type} [FiniteStream σ] :
    Suspended.Conducts (run : Session → σ → Session × σ) failed := by
  intro s stream
  have hended (r : Session × σ) (h : r.1.isOver = true) : r.1.run r.2 = r := by
    rw [run, if_pos h]
  obtain ⟨reason, hphase, hturn⟩ | ⟨response, hphase, hturn⟩ | ⟨hwait, hturn⟩ := s.turn_cases
  · exact Suspended.resume_enter_of_rest hturn
  · have hlive : ¬s.isOver = true := by simp [isOver, hphase, Phase.distance]
    rw [Suspended.resume_enter_of_send hturn, run, if_neg hlive]
    simp only [step, hphase]
    obtain ⟨r, stream'⟩ := send stream response
    cases r with
    | ok _ => simp only [Dialogue.proceed, proceed, hphase]
    | error e =>
      simp only [failed, hphase]
      exact (hended (s.responseFailed e, stream') rfl).symm
  · have hlive := not_isOver_of_waiting hwait
    rw [Suspended.resume_enter_of_receive hturn, run, if_neg hlive]
    generalize hreceive : receive stream s.phase.demand = result
    obtain ⟨r, stream'⟩ := result
    cases r with
    | ok bytes =>
      rw [step_of_received hwait hreceive, ← proceed_of_waiting hwait]
      rfl
    | error e =>
      rw [step_of_receiveFailed hwait hreceive]
      dsimp only
      rw [failed_of_waiting hwait]
      refine (hended (s.receiveFailed e, stream') ?_).symm
      simp [isOver, distance_receiveFailed hwait]

/-- However the calls of a session fall, what is left of it comes to what the session comes to that
makes them at one go. -/
theorem run_of_advances {σ : Type} [FiniteStream σ] {s : Session} {p : Suspended Session}
    {stream stream' : σ} (h : Suspended.AdvancesAll (.enter s) stream p stream') :
    s.run stream = p.resume run failed stream' :=
  (conducts s stream).symm.trans (h.resume_eq conducts)

end Session

end RemoteRegisters
