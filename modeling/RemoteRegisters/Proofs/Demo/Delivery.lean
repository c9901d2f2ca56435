import RemoteRegisters.Proofs.Connection.Refinement
import RemoteRegisters.Proofs.Demo.Rounds
import RemoteRegisters.Proofs.Register.Transmission

/-!
# The demo delivers its message or reports a failure

Whatever the stream does, the demo comes to an end, and it is done exactly if no
access has failed. Then the stream has taken the frames of the whole message, each
byte behind an answer that says ready, and at no time had it taken the frames of
other bytes than those at the front of the message. Over a link to the device
itself the demo is done, and the device has transmitted the message
(`Demo.delivers_or_fails`).
-/

namespace RemoteRegisters

theorem RegisterMap.transmission_append (m : RegisterMap) (rs qs : List Request) :
    m.transmission (rs ++ qs) = m.transmission rs ++ m.transmission qs :=
  List.flatMap_append

/-- Of frames and a part of one more those decode that are whole. -/
theorem Request.decodeAll_append_part {rs : List Request} {next : Request} {part : List UInt8}
    (hfit : ∀ r ∈ rs, r.fit = r) (hnext : next.fit = next) (hfront : part <+: next.encode) :
    (decodeAll (rs.flatMap encode ++ part)).1 = rs ∨
      (decodeAll (rs.flatMap encode ++ part)).1 = rs ++ [next] := by
  rw [decodeAll_encode_append, List.map_congr_left hfit, List.map_id']
  by_cases hwhole : part = next.encode
  · have hframe : next.encode = [next].flatMap encode ++ [] := by simp
    right
    rw [hwhole, hframe, decodeAll_encode_append, decodeAll_of_error decode_nil]
    simp [hnext]
  · obtain ⟨expected, -, hd⟩ := decode_of_prefix hfront (length_lt_frameLength hfront hwhole)
    left
    rw [decodeAll_of_error hd, List.append_nil]

namespace Demo

/-! ### What the frames of the demo transmit -/

theorem transmission_put (byte : UInt8) : RegisterMap.standard.transmission [put byte] = [byte] := by
  have htransmits : RegisterMap.standard.Transmits RegisterMap.txData := by decide
  have hbyte : byte.toUInt32.toUInt8 = byte := by
    apply UInt8.toNat_inj.mp
    rw [UInt32.toNat_toUInt8, UInt8.toNat_toUInt32]
    exact Nat.mod_eq_of_lt byte.toNat_lt
  simp [RegisterMap.transmission, put, htransmits, hbyte]

theorem transmission_polls (answers : List UInt32) :
    RegisterMap.standard.transmission (answers.map fun _ => poll) = [] := by
  simp [RegisterMap.transmission, poll]

theorem transmission_rounds (rounds : List Round) :
    RegisterMap.standard.transmission (rounds.flatMap Round.requests) = rounds.map Round.byte := by
  induction rounds with
  | nil => rfl
  | cons r rounds ih =>
    rw [List.flatMap_cons, RegisterMap.transmission_append, ih, Round.requests,
      RegisterMap.transmission_append, transmission_polls, transmission_put]
    rfl

theorem transmission_enable_cons (rs : List Request) :
    RegisterMap.standard.transmission (enable :: rs) = RegisterMap.standard.transmission rs := by
  have hnot : ¬RegisterMap.standard.Transmits RegisterMap.control := by decide
  simp [RegisterMap.transmission, enable, hnot]

/-- The frames of a progress, also with the next one, transmit bytes that the transmitter was ready
for. -/
theorem Progress.transmission_prefix (p : Progress) :
    RegisterMap.standard.transmission p.completed <+: p.bytes ∧
      RegisterMap.standard.transmission (p.completed ++ [p.next]) <+: p.bytes := by
  have hpoll : RegisterMap.standard.transmission [poll] = [] := transmission_polls [0]
  cases p with
  | starting => exact ⟨List.nil_prefix, (transmission_enable_cons []) ▸ List.nil_prefix⟩
  | polling rounds waits =>
    simp only [completed, next, bytes, RegisterMap.transmission_append, transmission_enable_cons,
      transmission_rounds, transmission_polls, hpoll, List.append_nil]
    exact ⟨List.prefix_rfl, List.prefix_rfl⟩
  | sending rounds last =>
    simp only [completed, next, bytes, RegisterMap.transmission_append, transmission_enable_cons,
      transmission_rounds, transmission_polls, transmission_put, List.append_nil]
    exact ⟨List.prefix_append _ _, List.prefix_rfl⟩

theorem fit_put (byte : UInt8) : (put byte).fit = put byte := by
  have hfit : byte.toUInt32.toNat < Width.byte.range := by
    rw [UInt8.toNat_toUInt32]
    exact byte.toNat_lt
  exact Request.fit_eq_self_iff.mpr hfit

/-- All frames of the demo hold their requests whole. -/
theorem Progress.fit_requests (p : Progress) :
    (∀ r ∈ p.completed, r.fit = r) ∧ p.next.fit = p.next := by
  have henable : enable.fit = enable := rfl
  have hpolls (answers : List UInt32) : ∀ r ∈ answers.map fun _ => poll, r.fit = r := by
    intro r hr
    obtain ⟨-, -, rfl⟩ := List.mem_map.mp hr
    rfl
  have hrounds (rounds : List Round) : ∀ r ∈ rounds.flatMap Round.requests, r.fit = r := by
    intro r hr
    obtain ⟨round, -, hr⟩ := List.mem_flatMap.mp hr
    obtain hr | hr := List.mem_append.mp hr
    · exact hpolls round.answers r hr
    · rw [List.mem_singleton.mp hr, fit_put]
  cases p with
  | starting => exact ⟨List.forall_mem_nil _, henable⟩
  | polling rounds waits =>
    exact ⟨List.forall_mem_cons.mpr
      ⟨henable, List.forall_mem_append.mpr ⟨hrounds rounds, hpolls waits⟩⟩, rfl⟩
  | sending rounds last =>
    exact ⟨List.forall_mem_cons.mpr
      ⟨henable, List.forall_mem_append.mpr ⟨hrounds rounds, hpolls last.answers⟩⟩, fit_put last.byte⟩

/-- The bytes that a stream has taken hold frames that transmit bytes from the front of the message. -/
theorem Progress.Exchanged.transmission_prefix {p : Progress} {s t : Script} {part got : List UInt8}
    (h : p.Exchanged s t part got) :
    RegisterMap.standard.transmission
      (Request.decodeAll (p.completed.flatMap Request.encode ++ part)).1 <+: p.bytes := by
  obtain ⟨hfit, hnext⟩ := p.fit_requests
  obtain ⟨hcompleted, hwhole⟩ := p.transmission_prefix
  obtain hdecode | hdecode := Request.decodeAll_append_part hfit hnext h.front
  · rwa [hdecode]
  · rwa [hdecode]

/-! ### The demo over a link -/

section Link

variable {σ : Type} [SessionLink σ]

theorem transmittedBy_eq (r : Request) :
    (RegisterFile.ofMap .standard).transmittedBy r = RegisterMap.standard.transmission [r] :=
  (RegisterFile.sinksOf_ofMap .standard).transmittedBy r

/-- No request of the demo changes the registers of a device in its reset state. -/
theorem apply_request? {stage : Stage} {r : Request} (hr : stage.request? = some r) :
    (RegisterFile.ofMap .standard).apply r = .ofMap .standard := by
  cases stage with
  | enabling message =>
    cases hr
    decide
  | polling next later =>
    cases hr
    rfl
  | sending next later =>
    cases hr
    rfl
  | done => cases hr
  | failed trouble => cases hr

/-- A bridge at rest over a link to a session with the registers of the device in their reset state,
without a fault so far. -/
structure Attended (b : Bridge σ) (s : Session) : Prop where
  rests : b.Rests s
  registers_eq : s.registers = .ofMap .standard
  faults_eq : b.faults = 0

/-- An access of the demo is answered by the registers in their reset state. -/
theorem Attended.perform {b : Bridge σ} {s : Session} (h : Attended b s) (stage : Stage) {c : Call}
    (hc : stage.call? 0 = some c) {r : Request} (hr : stage.request? = some r) :
    (b.perform c).answer = (RegisterFile.ofMap .standard).answer c ∧
      Attended (b.perform c).state (s.serve r) := by
  obtain ⟨hanswer, hfaults, hrests⟩ := h.rests.perform c
  obtain ⟨a, hplace, hrequest, -⟩ := Stage.placed_of_call? hc
  rw [Call.request?_of_place hplace, ← hrequest, hr] at hrests
  rw [h.registers_eq] at hanswer
  refine ⟨hanswer, hrests, ?_, hfaults.trans h.faults_eq⟩
  rw [Session.registers_serve, h.registers_eq, apply_request? hr]

/-- Over such a link the demo makes two accesses for each byte that is left of the message, and the
byte is transmitted. -/
theorem Attended.drive {b : Bridge σ} {s : Session} (h : Attended b s) (message : List UInt8) :
    ∃ b' s', Demo.drive (2 * message.length) (.proceed 0 message) b = (.done, b') ∧
      Attended b' s' ∧ s'.output = s.output ++ message ∧
      s'.frames = s.frames + 2 * message.length := by
  induction message generalizing b s with
  | nil => exact ⟨b, s, rfl, h, (List.append_nil _).symm, rfl⟩
  | cons byte later ih =>
    -- the device is always ready, so one status and one byte make up the round
    obtain ⟨hstatus, hpolled⟩ := h.perform (.polling byte later) rfl rfl
    obtain ⟨hdone, hput⟩ := hpolled.perform (.sending byte later) rfl rfl
    obtain ⟨b', s', hdrive, hattended, houtput, hframes⟩ := ih hput
    refine ⟨b', s', ?_, hattended, ?_, ?_⟩
    · calc
        Demo.drive (2 * later.length + 1 + 1) (.polling byte later) b
        _ = Demo.drive (2 * later.length + 1) (.sending byte later) _ :=
          drive_of_answer rfl hstatus hpolled.faults_eq _
        _ = Demo.drive (2 * later.length) (.proceed 0 later) _ :=
          drive_of_answer rfl hdone hput.faults_eq _
        _ = (.done, b') := hdrive
    · rw [houtput, Session.output_serve, Session.output_serve, hpolled.registers_eq, h.registers_eq,
        transmittedBy_eq, transmittedBy_eq, transmission_put, List.append_assoc, List.append_assoc]
      rfl
    · rw [hframes, Session.frames_serve, Session.frames_serve, List.length_cons]
      omega

/-- Over a link to a fresh session the demo is done when it has made one access and two for each byte of
its message. -/
theorem drive_of_fresh {link : σ} (hfresh : SessionLink.far link = .ofMap .standard) (hooked : Bool)
    (message : List UInt8) :
    ∃ b s, drive (1 + 2 * message.length) (.enabling message) { stream := link, hooked := hooked } =
        (.done, b) ∧
      Attended b s ∧ s.output = message ∧ s.frames = 1 + 2 * message.length := by
  have hstart : Attended { stream := link, hooked := hooked } (.ofMap .standard) :=
    ⟨⟨rfl, hfresh, rfl⟩, rfl, rfl⟩
  obtain ⟨hanswer, henabled⟩ := hstart.perform (.enabling message) rfl rfl
  obtain ⟨b, s, hdrive, hattended, houtput, hframes⟩ := henabled.drive message
  refine ⟨b, s, ?_, hattended, houtput, hframes⟩
  rw [Nat.add_comm]
  exact (drive_of_answer rfl hanswer henabled.faults_eq _).trans hdrive

end Link

/-! ### The whole demo -/

section Course

variable {message : List UInt8} {s : Script} {stage : Stage} {b : Bridge Script}

/-- A demo that is over is done exactly if no access has failed. -/
theorem Course.done_iff (h : Course message s stage b) (hover : stage.Over) :
    stage = .done ↔ b.faults = 0 := by
  cases h with
  | intact hat _ _ hfaults =>
    refine iff_of_true ?_ hfaults
    obtain hdone | ⟨trouble, rfl⟩ := hover
    · exact hdone
    · cases hat
  | lost _ _ _ hfaults hstage => exact iff_of_false hstage.ne_done hfaults

/-- A demo that is done has made one round for each byte of its message. -/
theorem Course.rounds_of_done (h : Course message s .done b) :
    ∃ rounds : List Round, (∀ r ∈ rounds, r.Proper) ∧ rounds.map Round.byte = message ∧
      b.stream.sent =
        s.sent ++ (enable :: rounds.flatMap Round.requests).flatMap Request.encode ∧
      s.undelivered =
        ((rounds.flatMap Round.answers).flatMap fun v => encodeValue v .word) ++
          b.stream.undelivered := by
  cases h with
  | intact hat hproper _ _ hexchanged =>
    cases hat with
    | @done rounds hmessage =>
      have hsent := hexchanged.sent_eq
      have hdata := hexchanged.data_eq
      simp only [Progress.completed, Progress.answers, List.map_nil, List.append_nil] at hsent hdata
      exact ⟨rounds, hproper.1, hmessage.symm, hsent, hdata⟩
  | lost _ _ _ _ hstage => exact absurd rfl hstage.ne_done

/-- At any time the stream has taken the frames of a progress that gets ready for bytes from the front
of the message only, and a part of one more. -/
theorem Course.exists_progress (h : Course message s stage b) :
    ∃ (p : Progress) (part got : List UInt8), p.Proper ∧ p.bytes <+: message ∧
      p.Exchanged s b.stream part got ∧ (b.faults = 0 → part = [] ∧ got = []) := by
  cases h with
  | @intact p _ _ hat hproper _ _ hexchanged =>
    exact ⟨p, [], [], hproper, hat.bytes_prefix, hexchanged, fun _ => ⟨rfl, rfl⟩⟩
  | @lost p _ _ part got hproper hbytes _ hfaults _ hexchanged =>
    exact ⟨p, part, got, hproper, hbytes, hexchanged, fun hnone => absurd hnone hfaults⟩

end Course

/-- The demo delivers its message or reports a failure. On a bridge at an aligned base of an address
space of its own, over any script, it comes to an end, and it is done exactly if no access has failed.
Then the stream has taken the frame that enables the device and, for each byte of the message in order,
one or more requests for the status and the frame of the byte; the last answer before the byte says
ready, and the earlier ones do not. After any number of accesses, failed or not, the stream has taken
the frames of some progress and a part of the next one, so that the frame of a byte only ever stands
behind a ready answer that has come; and the whole frames among the bytes transmit a prefix of the
message. Over a link to a fresh session the demo is done, the device has transmitted the message, and
the session counts one frame and two for each byte. -/
theorem delivers_or_fails (message : List UInt8) (hooked : Bool) {base : UInt64}
    (haligned : 4 ∣ base.toNat) (hfits : base.toNat + 0x1000 < UInt64.size) :
    (∀ s : Script,
      let bridge : Bridge Script := { stream := s, hooked := hooked }
      let limit := budget message s.undelivered.length
      let last := start base bridge message limit
      (last.1 = .done ∨ ∃ trouble, last.1 = .failed trouble) ∧
        (∀ accesses, limit ≤ accesses → start base bridge message accesses = last) ∧
        (last.1 = .done ↔ last.2.faults = 0) ∧
        (last.1 = .done → ∃ rounds : List Round,
          (∀ r ∈ rounds, r.Proper) ∧ rounds.map Round.byte = message ∧
            last.2.stream.sent =
              s.sent ++ (enable :: rounds.flatMap Round.requests).flatMap Request.encode ∧
            s.undelivered =
              ((rounds.flatMap Round.answers).flatMap fun v => encodeValue v .word) ++
                last.2.stream.undelivered) ∧
        ∀ accesses, let b := (start base bridge message accesses).2
          (∃ (p : Progress) (part got : List UInt8), p.Proper ∧ p.bytes <+: message ∧
            p.Exchanged s b.stream part got ∧ (b.faults = 0 → part = [] ∧ got = [])) ∧
          ∃ taken, b.stream.sent = s.sent ++ taken ∧
            RegisterMap.standard.transmission (Request.decodeAll taken).1 <+: message) ∧
      ∀ (σ : Type) [SessionLink σ] (link : σ), SessionLink.far link = .ofMap .standard →
        ∀ accesses, 1 + 2 * message.length ≤ accesses →
          let last := start base { stream := link, hooked := hooked } message accesses
          let session := (SessionLink.far last.2.stream).hangUp
          last.1 = .done ∧ last.2.faults = 0 ∧ session.output = message ∧
            session.frames = 1 + 2 * message.length ∧ session.endReason? = some .peerClosed := by
  refine ⟨fun s => ?_, fun σ _ link hfresh accesses hle => ?_⟩
  · intro bridge limit last
    have hstart (accesses : Nat) :
        start base bridge message accesses = drive accesses (.enabling message) bridge :=
      start_eq_drive haligned hfits bridge message accesses
    have hover : last.1.Over := by
      rw [show last = _ from hstart limit]
      exact over_of_rank_le (Nat.le_refl _)
    have hcourse : Course message s last.1 last.2 := by
      rw [show last = _ from hstart limit]
      exact course_drive s hooked message limit
    refine ⟨hover, fun accesses hle => ?_, hcourse.done_iff hover, fun hdone => ?_, fun accesses => ?_⟩
    · rw [show last = _ from hstart limit, hstart accesses]
      exact drive_of_budget_le hle
    · rw [hdone] at hcourse
      exact hcourse.rounds_of_done
    · intro b
      have hb : b = _ := congrArg Prod.snd (hstart accesses)
      rw [hb]
      obtain ⟨p, part, got, hproper, hbytes, hexchanged, hnone⟩ :=
        (course_drive s hooked message accesses).exists_progress
      refine ⟨⟨p, part, got, hproper, hbytes, hexchanged, hnone⟩, _, ?_,
        hexchanged.transmission_prefix.trans hbytes⟩
      rw [← List.append_assoc]
      exact hexchanged.sent_eq
  · intro last session
    obtain ⟨b, s, hdrive, hattended, houtput, hframes⟩ := drive_of_fresh hfresh hooked message
    have hlast : last = (.done, b) := by
      rw [show last = _ from start_eq_drive haligned hfits _ message accesses,
        ← Nat.add_sub_of_le hle, drive_add, hdrive]
      exact drive_of_over (.inl rfl) _ b
    have hsession : session = s.finish .peerClosed := by
      rw [← hattended.rests.hangUp]
      exact congrArg (fun last => (SessionLink.far last.2.stream).hangUp) hlast
    rw [hlast, hsession]
    exact ⟨rfl, hattended.faults_eq, houtput, hframes, rfl⟩

/-- A byte that the transmitter is ready for at the second answer, and the same byte over a link. -/
theorem delivers_or_fails_late_ready :
    let s : Script :=
      { reads := [.data [0, 0], .data [0, 0, 1, 0, 0, 0]], writes := [], flushes := [] }
    let last := start 0x40 { stream := s } [0x48] (budget [0x48] s.undelivered.length)
    let linked := start 0x40 { stream := Remote.ofMap .standard } [0x48] 3
    last.1 = .done ∧ last.2.faults = 0 ∧
      last.2.stream.sent = [enable, poll, poll, put 0x48].flatMap Request.encode ∧
      (∃ rounds : List Round, (∀ r ∈ rounds, r.Proper) ∧ rounds.map Round.byte = [0x48]) ∧
      linked.1 = .done ∧ (SessionLink.far linked.2.stream).hangUp.output = [0x48] ∧
      (SessionLink.far linked.2.stream).hangUp.frames = 3 := by
  intro s last linked
  have haligned : 4 ∣ (0x40 : UInt64).toNat := by decide
  have hfits : (0x40 : UInt64).toNat + 0x1000 < UInt64.size := by decide
  obtain ⟨hscript, hlink⟩ := delivers_or_fails [0x48] false haligned hfits
  have hlast : start 0x40 { stream := s } [0x48] (budget [0x48] s.undelivered.length) = last := rfl
  have hlinked : start 0x40 { stream := Remote.ofMap .standard } [0x48] 3 = linked := rfl
  have hcourse := hscript s
  have hsession := hlink Remote (Remote.ofMap .standard) rfl 3 (Nat.le_refl _)
  dsimp only at hcourse hsession
  rw [hlast] at hcourse
  rw [hlinked] at hsession
  obtain ⟨-, -, hiff, hrounds, -⟩ := hcourse
  obtain ⟨hover, -, houtput, hframes, -⟩ := hsession
  have hend : last = (.done, { stream :=
      { reads := [], writes := [], flushes := []
        sent := [enable, poll, poll, put 0x48].flatMap Request.encode } }) := by
    rw [← hlast, start_eq_drive haligned hfits]
    simp only [s]
    cbv
  have hdone : last.1 = .done := congrArg Prod.fst hend
  have hsent := congrArg (fun last => last.2.stream.sent) hend
  obtain ⟨rounds, hproper, hbytes, -⟩ := hrounds hdone
  exact ⟨hdone, hiff.mp hdone, hsent, ⟨rounds, hproper, hbytes⟩, hover, houtput, hframes⟩

end Demo

end RemoteRegisters
