import RemoteRegisters.Connection
import RemoteRegisters.Proofs.Bridge.Delivery
import RemoteRegisters.Proofs.Connection.Link
import RemoteRegisters.Proofs.Register.Direct

/-!
# A connection behaves as the registers themselves

Accesses that are made through a bridge, a link and a session get the answers
that the registers would give to them directly, and leave the registers as
direct accesses would (`Bridge.Rests.performAll`). Nothing of the way shows: not the
width of the frames, not the pace of the link, and not the connections before.

## Main definitions

- `Bridge.Rests` — a bridge over a link that is between two frames
-/

namespace RemoteRegisters

/-! ### One access over a link -/

namespace Remote

def idle (s : Session) : Remote :=
  ⟨s, [], []⟩

theorem settle_of_idle {s : Session} (hidle : s.phase = .idle) (outbox : List UInt8) :
    settle ⟨s, [], outbox⟩ = ⟨s, [], outbox⟩ := by
  apply settle_of_short
  · rw [hidle]
    rfl
  · rw [hidle]
    exact Nat.one_pos

/-- A whole frame is served at once. -/
theorem deliver_encode {s : Session} (hidle : s.phase = .idle) {q : Request} (hfit : q.fit = q) :
    (idle s).deliver q.encode = ⟨s.serve q, [], s.registers.response q⟩ := by
  have hd : Request.decode q.encode = .ok q := by
    rw [q.decode_encode, hfit]
  have hdrop : q.encode.drop q.frameLength = [] :=
    List.drop_of_length_le (Nat.le_of_eq q.length_encode)
  change settle ⟨s, q.encode, []⟩ = _
  rw [settle_of_decode hidle hd, hdrop]
  exact settle_of_idle (Session.phase_serve s q) _

theorem hangUp_idle {s : Session} (hidle : s.phase = .idle) :
    (idle s).hangUp = s.finish .peerClosed := by
  have hwait : (idle s).session.phase.distance = 1 := by
    change s.phase.distance = 1
    rw [hidle]
    rfl
  rw [hangUp_of_waiting hwait]
  simp only [Session.receiveFailed, idle, hidle]
  rfl

end Remote

section Link

variable {σ : Type} [SessionLink σ] {stream : σ} {s : Session}

/-- Over a link the exchange of an access succeeds, with what the registers of the session hold. -/
theorem Call.exchange_of_far (hfar : SessionLink.far stream = Remote.idle s)
    (hidle : s.phase = .idle) (c : Call) (a : Placement) :
    ∃ stream', c.exchange a stream = (.ok (s.registers.found c a), stream') ∧
      SessionLink.far stream' = Remote.idle (s.serve (c.request a)) := by
  obtain ⟨stream₁, hsend, hfar₁⟩ :=
    SessionLink.lossless.send hfar (c.request a).encode_ne_nil
  have hserved : SessionLink.far stream₁ =
      ⟨s.serve (c.request a), [], s.registers.response (c.request a)⟩ :=
    hfar₁.trans (Remote.deliver_encode hidle (c.fit_request a))
  simp only [exchange, hsend]
  -- a write is done when it is sent; a read still has the response to receive
  cases hop : c.operation with
  | write value =>
    refine ⟨stream₁, by simp only [RegisterFile.found, hop], hserved.trans ?_⟩
    simp only [request, hop]
    rfl
  | read =>
    have hresponse : s.registers.response (c.request a) =
        encodeValue (a.width.truncate (s.registers.read a.offset a.width)) a.width := by
      simp only [request, hop]
      rfl
    rw [hresponse] at hserved
    obtain ⟨stream₂, hreceive, hfar₂⟩ :=
      SessionLink.lossless.receive hserved (length_encodeValue _ a.width)
    have hreceived : receive stream₁ a.width.bytes =
        (.ok (encodeValue (a.width.truncate (s.registers.read a.offset a.width)) a.width), stream₂) :=
      hreceive
    refine ⟨stream₂, ?_, hfar₂.trans ?_⟩
    · simp only [hreceived, RegisterFile.found, hop, valueOfBytes_encodeValue,
        Width.truncate_toUInt64_truncate]
    · change (⟨_, _, (encodeValue _ _).drop a.width.bytes⟩ : Remote) = _
      rw [List.drop_of_length_le (Nat.le_of_eq (length_encodeValue _ _))]
      rfl

namespace Bridge

/-- A bridge whose link is between two frames, with the session in a given state. -/
structure Rests (b : Bridge σ) (s : Session) : Prop where
  intact : b.broken = false
  far_eq : SessionLink.far b.stream = Remote.idle s
  idle : s.phase = .idle

/-- An access over a link is answered as the registers of the session answer it directly. -/
theorem Rests.perform {b : Bridge σ} (h : b.Rests s) (c : Call) :
    (b.perform c).answer = s.registers.answer c ∧ (b.perform c).state.faults = b.faults ∧
      (b.perform c).state.Rests (s.serveAll c.request?.toList) := by
  have haccess := b.access_perform c
  generalize b.perform c = o at haccess
  cases haccess with
  | refused hplace =>
    rw [Call.request?_of_refused hplace, RegisterFile.answer, hplace]
    exact ⟨rfl, rfl, h⟩
  | abandoned _ hbroken => cases h.intact.symm.trans hbroken
  | @failed a e stream hplace _ hexchange =>
    -- no exchange over a link fails
    obtain ⟨stream', hdone, -⟩ := c.exchange_of_far h.far_eq h.idle a
    cases hexchange.symm.trans hdone
  | @completed a value stream hplace hintact hexchange =>
    obtain ⟨stream', hdone, hfar⟩ := c.exchange_of_far h.far_eq h.idle a
    cases hexchange.symm.trans hdone
    rw [Call.request?_of_place hplace, RegisterFile.answer_of_place _ hplace]
    exact ⟨rfl, rfl, hintact, hfar, Session.phase_serve _ _⟩

theorem registers_serveAll_request? (s : Session) (c : Call) :
    (s.serveAll c.request?.toList).registers = s.registers.accessed c := by
  rw [Session.registers_serveAll, RegisterFile.applyAll_request?]

/-- Accesses over a link are answered as the registers of the session answer them directly. None is
counted as a fault, and the session serves exactly the requests of the valid ones. -/
theorem Rests.performAll {b : Bridge σ} (h : b.Rests s) (cs : List Call) :
    (b.performAll cs).map Outcome.answer = s.registers.answers cs ∧
      (∀ o ∈ b.performAll cs, o.state.faults = b.faults) ∧
      (b.after cs).Rests (s.serveAll (Call.requests cs)) := by
  -- every access leaves the bridge at rest again, with a session that has served one request more
  induction cs generalizing b s with
  | nil => exact ⟨rfl, fun o ho => (List.not_mem_nil ho).elim, h⟩
  | cons c cs ih =>
    obtain ⟨hanswer, hfaults, hrests⟩ := h.perform c
    obtain ⟨hanswers, hall, hlast⟩ := ih hrests
    rw [registers_serveAll_request?] at hanswers
    refine ⟨?_, fun o ho => ?_, ?_⟩
    · rw [Bridge.performAll, List.map_cons, hanswers, hanswer]
      rfl
    · cases ho with
      | head => exact hfaults
      | tail _ hmem => exact (hall o hmem).trans hfaults
    · rw [Call.requests_cons, Session.serveAll, List.foldl_append]
      exact hlast

theorem rests_fresh {m : RegisterMap} {link : σ} (h : SessionLink.far link = .ofMap m) :
    ({ stream := link } : Bridge σ).Rests (.ofMap m) :=
  ⟨rfl, h, rfl⟩

theorem Rests.hangUp {b : Bridge σ} (h : b.Rests s) :
    (SessionLink.far b.stream).hangUp = s.finish .peerClosed := by
  rw [h.far_eq, Remote.hangUp_idle h.idle]

end Bridge

/-- Connections one after the other, each a fresh bridge on a link to a fresh session, against the
same accesses on fresh registers. All answers are the same, and so is what is transmitted. No access
is counted as a fault. Each session ends in order behind one frame for each valid access, and a session
that is run on these frames, in whatever chunks, ends in the same state. -/
theorem Connection.refines_registers (m : RegisterMap) (connections : List (σ × List Call))
    (hfresh : ∀ p ∈ connections, SessionLink.far p.1 = .ofMap m) :
    let bridge (p : σ × List Call) : Bridge σ := { stream := p.1 }
    let session (p : σ × List Call) : Session :=
      (SessionLink.far ((bridge p).after p.2).stream).hangUp
    let direct := RegisterFile.ofMap m
    (connections.map fun p => ((bridge p).performAll p.2).map Outcome.answer) =
        connections.map (fun p => direct.answers p.2) ∧
      (connections.flatMap fun p => (session p).output) =
        connections.flatMap (fun p => direct.emissions p.2) ∧
      ∀ p ∈ connections,
        (∀ o ∈ (bridge p).performAll p.2, o.state.faults = 0) ∧
        (session p).endReason? = some .peerClosed ∧
        (session p).frames = p.2.countP (fun c => decide c.Valid) ∧
        ∀ stream : Script, stream.FaultFree ((Call.requests p.2).flatMap Request.encode) →
          ((Session.ofMap m).run stream).1 = session p := by
  intro bridge session direct
  have hrun {p : σ × List Call} (hp : p ∈ connections) :=
    (Bridge.rests_fresh (hfresh p hp)).performAll p.2
  have hsession {p : σ × List Call} (hp : p ∈ connections) :
      session p = ((Session.ofMap m).serveAll (Call.requests p.2)).finish .peerClosed :=
    (hrun hp).2.2.hangUp
  refine ⟨List.map_congr_left fun p hp => (hrun hp).1, ?_, fun p hp => ⟨(hrun hp).2.1, ?_, ?_, ?_⟩⟩
  · rw [List.flatMap_def, List.flatMap_def]
    refine congrArg List.flatten (List.map_congr_left fun p hp => ?_)
    rw [hsession hp]
    exact (Session.output_serveAll _ _).trans (direct.transmitted_requests p.2)
  · rw [hsession hp]
    rfl
  · rw [hsession hp, ← Call.length_requests]
    exact (Session.frames_serveAll (Session.ofMap m) _).trans (Nat.zero_add _)
  · intro stream hfree
    rw [← List.append_nil (List.flatMap _ _)] at hfree
    rw [hsession hp]
    exact Session.run_of_frames m (fun r hr => Call.fit_of_mem_requests hr) Request.decode_nil hfree

end Link

namespace Connection

/-- A slow link and a fast one, with one control register each. -/
theorem refines_registers_two_links :
    let connections : List (Paced × List Call) :=
      [({ remote := .ofMap .standard, pace := [3, 0, 1] },
          [.write 0 1 0x148, .write 8 4 0, .read 8 4, .read 0x1000 1]),
        ({ remote := .ofMap .standard, pace := [] }, [.read 8 4])]
    (connections.map fun p =>
        (({ stream := p.1 } : Bridge Paced).performAll p.2).map Outcome.answer) =
      [[.ok none, .ok none, .ok (some 0), .error (.unmapped 0x1000)], [.ok (some 1)]] ∧
    (connections.flatMap fun p =>
        (SessionLink.far (({ stream := p.1 } : Bridge Paced).after p.2).stream).hangUp.output) =
      [0x48] := by
  intro connections
  have hfresh : ∀ p ∈ connections, SessionLink.far p.1 = Remote.ofMap .standard := by
    have hstays : (Remote.ofMap .standard).deliver [] = Remote.ofMap .standard :=
      Remote.settle_of_idle rfl []
    intro p hp
    simp only [connections, List.mem_cons, List.not_mem_nil, or_false] at hp
    obtain rfl | rfl := hp <;> exact hstays
  obtain ⟨hanswers, houtput, -⟩ := refines_registers .standard connections hfresh
  exact ⟨hanswers.trans rfl, houtput.trans rfl⟩

/-- The course of a connection whose accesses are made on the bridge. -/
theorem run_direct (m : RegisterMap) (cs : List Call) :
    (run m (.direct cs)).steps.map ConnectionStep.answer = (RegisterFile.ofMap m).answers cs ∧
      (∀ step ∈ (run m (.direct cs)).steps, step.faults = 0) ∧
      (run m (.direct cs)).session =
        ((Session.ofMap m).serveAll (Call.requests cs)).finish .peerClosed := by
  have hfresh : SessionLink.far (Remote.ofMap m) = .ofMap m := rfl
  obtain ⟨hanswers, hfaults, hrests⟩ := (Bridge.rests_fresh hfresh).performAll cs
  refine ⟨List.map_map.trans hanswers, fun step hstep => ?_, hrests.hangUp⟩
  obtain ⟨o, ho, rfl⟩ := List.mem_map.mp hstep
  exact hfaults o ho

end Connection

end RemoteRegisters
