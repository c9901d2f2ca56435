import RemoteRegisters.Proofs.Frame.RoundTrip
import RemoteRegisters.Proofs.Session.Service
import RemoteRegisters.Remote

/-!
# What a session makes of the bytes that reach it

A session reads a frame in three parts, and decides after each what it needs
next. Decoding looks at a whole byte string at once. Both come to the same:
`Remote.settle_decodeAll` carries out exactly the requests that decode, and
`Remote.endsBy_of_error` ends for the reason for which the rest does not decode.

The one difference is the first byte. A session reports a byte that names no
kind at once, also where too few bytes for a header have come.
-/

namespace RemoteRegisters

/-- The reason for which a session ends when nothing comes behind bytes that cannot be read as a
frame. -/
def EndReason.ofRest (rest : List UInt8) (e : FrameError) : EndReason :=
  match rest, e with
  | [], _ => .peerClosed
  | tag :: more, .truncated expected actual =>
      if more.length + 1 < headerLength ∧ AccessKind.ofTag? tag = none then
        .protocol (.unknownKind tag)
      else .truncated expected actual
  | _ :: _, e => .protocol e

/-- An end of the stream within a frame is reported with all bytes of the frame that had come. -/
theorem EndReason.ofMidFrame_endOfStream (expected already missing got : Nat) :
    ofMidFrame expected already (.endOfStream missing got) = truncated expected (already + got) := by
  unfold TransferError.endOfStream
  split
  · rename_i hnone
    rw [hnone]
    rfl
  · rfl

theorem EndReason.ofRest_of_unknownKind {tag : UInt8} {rest : List UInt8} {e : FrameError}
    (htag : AccessKind.ofTag? tag = none) (hd : Request.decode (tag :: rest) = .error e) :
    ofRest (tag :: rest) e = .protocol (.unknownKind tag) := by
  -- too short for a header, the bytes decode as truncated and not as malformed
  by_cases hshort : (tag :: rest).length < headerLength
  · rw [Request.decode_of_header_error (Header.decode_of_short hshort)] at hd
    cases hd
    exact if_pos ⟨hshort, htag⟩
  · rw [Request.decode_of_header_error
      (Header.decode_of_unknownKind htag (Nat.not_lt.mp hshort))] at hd
    cases hd
    rfl

theorem EndReason.ofRest_of_truncated {k : AccessKind} (rest : List UInt8)
    (expected actual : Nat) :
    ofRest (k.tag :: rest) (.truncated expected actual) = .truncated expected actual := by
  refine if_neg fun h => ?_
  rw [AccessKind.ofTag?_tag] at h
  cases h.2

namespace Session

theorem not_isOver_of_waiting {s : Session} (h : s.phase.distance = 1) : ¬s.isOver = true := by
  simp [isOver, h]

theorem phase_of_response? {s : Session} {response : List UInt8} (h : s.response? = some response) :
    s.phase = .responding response := by
  unfold response? at h
  split at h
  · cases h
    assumption
  · cases h

/-- A session that is not over either has a response to send or waits for bytes. -/
theorem response?_eq_none_iff {s : Session} (hover : ¬s.isOver = true) :
    s.response? = none ↔ s.phase.distance = 1 := by
  unfold isOver at hover
  unfold response?
  cases hphase : s.phase <;> simp_all [Phase.distance]

end Session

namespace Remote

theorem settle_of_over {r : Remote} (h : r.session.isOver = true) : r.settle = r := by
  rw [settle, if_pos h]

theorem settle_of_ended {r : Remote} {reason : EndReason} (h : r.session.phase = .ended reason) :
    r.settle = r :=
  settle_of_over (Session.isOver_iff.mpr ⟨reason, h⟩)

theorem settle_of_responding {r : Remote} {response : List UInt8}
    (h : r.session.phase = .responding response) :
    r.settle =
      settle { r with session := r.session.responded, outbox := r.outbox ++ response } := by
  have hover : ¬r.session.isOver = true := by simp [Session.isOver, h, Session.Phase.distance]
  have hresponse : r.session.response? = some response := by simp [Session.response?, h]
  rw [settle, if_neg hover]
  split
  · rename_i response' heq
    cases hresponse.symm.trans heq
    rfl
  · rename_i heq
    cases hresponse.symm.trans heq

/-- A waiting session takes the bytes that it needs. -/
theorem settle_of_enough {r : Remote} (h : r.session.phase.distance = 1)
    (hlen : r.session.phase.demand ≤ r.inbox.length) :
    r.settle =
      settle
        { r with
          session := r.session.received (r.inbox.take r.session.phase.demand)
          inbox := r.inbox.drop r.session.phase.demand } := by
  have hover := Session.not_isOver_of_waiting h
  rw [settle, if_neg hover]
  split
  · rename_i response heq
    cases ((Session.response?_eq_none_iff hover).mpr h).symm.trans heq
  · rw [if_pos hlen]

theorem settle_of_short {r : Remote} (h : r.session.phase.distance = 1)
    (hlen : r.inbox.length < r.session.phase.demand) : r.settle = r := by
  have hover := Session.not_isOver_of_waiting h
  rw [settle, if_neg hover]
  split
  · rename_i response heq
    cases ((Session.response?_eq_none_iff hover).mpr h).symm.trans heq
  · rw [if_neg (Nat.not_le.mpr hlen)]

theorem hangUp_of_waiting {r : Remote} (h : r.session.phase.distance = 1) :
    r.hangUp = r.session.receiveFailed (.endOfStream r.session.phase.demand r.inbox.length) := by
  rw [hangUp, if_neg (Session.not_isOver_of_waiting h)]

theorem hangUp_of_ended {r : Remote} {reason : EndReason} (h : r.session.phase = .ended reason) :
    r.hangUp = r.session := by
  rw [hangUp, if_pos (Session.isOver_iff.mpr ⟨reason, h⟩)]

/-! ### One frame -/

theorem settle_of_kind {r : Remote} {k : AccessKind} {rest : List UInt8}
    (hidle : r.session.phase = .idle) (hinbox : r.inbox = k.tag :: rest) :
    r.settle = settle { r with session := { r.session with phase := .header k }, inbox := rest } := by
  have hwait : r.session.phase.distance = 1 := by rw [hidle]; rfl
  have hdemand : r.session.phase.demand = 1 := by rw [hidle]; rfl
  rw [settle_of_enough hwait (by simp [hdemand, hinbox]), hdemand]
  simp [hinbox, Session.received, hidle]

theorem settle_of_unknownKind {r : Remote} {tag : UInt8} {rest : List UInt8}
    (hidle : r.session.phase = .idle) (hinbox : r.inbox = tag :: rest)
    (htag : AccessKind.ofTag? tag = none) :
    r.settle = { r with session := r.session.finish (.protocol (.unknownKind tag)), inbox := rest } := by
  have hwait : r.session.phase.distance = 1 := by rw [hidle]; rfl
  have hdemand : r.session.phase.demand = 1 := by rw [hidle]; rfl
  have hreceived : r.session.received [tag] = r.session.finish (.protocol (.unknownKind tag)) := by
    simp [Session.received, hidle, htag]
  rw [settle_of_enough hwait (by simp [hdemand, hinbox]), hdemand, hinbox]
  change settle { r with session := r.session.received [tag], inbox := rest } = _
  rw [hreceived, settle_of_ended rfl]

/-- The session behind the six bytes of a header: a read is carried out at once, and a write waits
for its payload. -/
def afterHeader (s : Session) : Except FrameError Header → Session
  | .error e => s.finish (.protocol e)
  | .ok h =>
      match h.kind with
      | .read => s.apply (.read h.addr h.width)
      | .write => { s with phase := .payload h.addr h.width }

/-- Six bytes with a known kind are read as the header of a frame. -/
theorem settle_of_header {r : Remote} {k : AccessKind} {rest : List UInt8}
    (hidle : r.session.phase = .idle) (hinbox : r.inbox = k.tag :: rest)
    (hlen : headerLength ≤ r.inbox.length) :
    r.settle =
      settle
        { r with
          session := afterHeader r.session (Header.decode r.inbox)
          inbox := r.inbox.drop headerLength } := by
  have hread : Header.decode (k.tag :: rest.take 5) = Header.decode r.inbox := by
    rw [← Header.decode_take hlen, hinbox]
    rfl
  have hdemand : (Session.Phase.header k).demand ≤ rest.length := by
    rw [hinbox] at hlen
    exact Nat.le_of_succ_le_succ hlen
  have hreceived : Session.received { r.session with phase := .header k } (rest.take 5) =
      afterHeader r.session (Header.decode r.inbox) := by
    simp only [Session.received, hread, afterHeader]
    cases Header.decode r.inbox with
    | error e => rfl
    | ok h =>
      dsimp only
      cases h.kind <;> rfl
  rw [settle_of_kind hidle hinbox, settle_of_enough rfl hdemand, ← hreceived, hinbox]
  rfl

theorem received_payload {s : Session} {addr : UInt32} {w : Width} {payload : List UInt8}
    (hphase : s.phase = .payload addr w) (hlen : payload.length = w.bytes) :
    s.received payload = s.apply (.ofWrite addr w (valueOfBytes payload).toUInt64) := by
  have hcomplete := Header.complete_of_length (h := ⟨.write, addr, w⟩) hlen
  simp only [Session.received, hphase, hcomplete]
  rfl

/-- A request that decodes is carried out, and the session goes on behind its frame. -/
theorem settle_of_decode {r : Remote} {q : Request} (hidle : r.session.phase = .idle)
    (hd : Request.decode r.inbox = .ok q) :
    r.settle =
      settle
        { session := r.session.serve q
          inbox := r.inbox.drop q.frameLength
          outbox := r.outbox ++ r.session.registers.response q } := by
  cases hheader : Header.decode r.inbox with
  | error e => cases (Request.decode_of_header_error hheader).symm.trans hd
  | ok h =>
    obtain ⟨rest, hinbox⟩ := Header.exists_cons_of_decode hheader
    rw [settle_of_header hidle hinbox (Header.length_of_decode hheader), hheader]
    rw [Request.decode_of_header hheader] at hd
    split at hd
    · cases hd
    · rename_i hlen
      cases hd
      cases hkind : h.kind with
      | read =>
        simp only [afterHeader, Header.fill, hkind]
        rw [settle_of_responding rfl]
        rfl
      | write =>
        -- a write is carried out when its payload has come as well
        simp only [Header.payloadLength, hkind] at hlen ⊢
        simp only [afterHeader, Header.fill, hkind]
        have hle := Nat.not_lt.mp hlen
        have hpayload : ((r.inbox.drop headerLength).take h.width.bytes).length = h.width.bytes := by
          rw [List.length_take, List.length_drop]
          omega
        rw [settle_of_enough rfl (by rw [List.length_drop]; exact Nat.le_sub_of_add_le' hle)]
        dsimp only [Session.Phase.demand]
        rw [received_payload rfl hpayload, List.drop_drop]
        congr 2
        exact (List.append_nil _).symm

/-! ### The end of the stream -/

/-- The session sends nothing more and ends for this reason, at the latest when the stream does. -/
def EndsBy (r : Remote) (reason : EndReason) : Prop :=
  r.settle.outbox = r.outbox ∧ r.settle.hangUp = r.session.finish reason

theorem endsBy_of_nil {r : Remote} (hidle : r.session.phase = .idle) (hinbox : r.inbox = []) :
    r.EndsBy .peerClosed := by
  have hwait : r.session.phase.distance = 1 := by rw [hidle]; rfl
  have hstay : r.settle = r := by
    apply settle_of_short hwait
    rw [hinbox, hidle]
    exact Nat.one_pos
  rw [EndsBy, hstay, hangUp_of_waiting hwait, hinbox]
  refine ⟨rfl, ?_⟩
  simp only [Session.receiveFailed, hidle]
  rfl

theorem endsBy_of_shortHeader {r : Remote} {k : AccessKind} {rest : List UInt8}
    (hidle : r.session.phase = .idle) (hinbox : r.inbox = k.tag :: rest)
    (hshort : (k.tag :: rest).length < headerLength) :
    r.EndsBy (.truncated headerLength (k.tag :: rest).length) := by
  rw [EndsBy, settle_of_kind hidle hinbox, settle_of_short rfl (Nat.lt_of_succ_lt_succ hshort),
    hangUp_of_waiting rfl]
  refine ⟨rfl, ?_⟩
  change Session.finish _ (.ofMidFrame headerLength 1 (.endOfStream 5 rest.length)) = _
  rw [EndReason.ofMidFrame_endOfStream, Nat.add_comm]
  rfl

/-- The stream ends within the payload of a write. -/
theorem endsBy_of_shortPayload {r : Remote} {k : AccessKind} {rest : List UInt8} {h : Header}
    (hidle : r.session.phase = .idle) (hinbox : r.inbox = k.tag :: rest)
    (hheader : Header.decode r.inbox = .ok h)
    (hcut : r.inbox.length < headerLength + h.payloadLength) :
    r.EndsBy (.truncated (headerLength + h.payloadLength) r.inbox.length) := by
  have hlen := Header.length_of_decode hheader
  -- a read has no payload that could be cut off
  have hkind : h.kind = .write := by
    cases hkind : h.kind with
    | read =>
      rw [Header.payloadLength, hkind] at hcut
      exact absurd hcut (Nat.not_lt.mpr hlen)
    | write => rfl
  simp only [Header.payloadLength, hkind] at hcut ⊢
  have hless : (r.inbox.drop headerLength).length < h.width.bytes := by
    rw [List.length_drop]
    omega
  rw [EndsBy, settle_of_header hidle hinbox hlen, hheader]
  simp only [afterHeader, hkind]
  rw [settle_of_short rfl hless, hangUp_of_waiting rfl]
  refine ⟨rfl, ?_⟩
  change Session.finish _ (.ofMidFrame _ _ (.endOfStream _ _)) = _
  rw [EndReason.ofMidFrame_endOfStream, List.length_drop, Nat.add_sub_of_le hlen]
  rfl

/-- Where nothing more can be read, what is left says how the session ends. -/
theorem endsBy_of_error {r : Remote} {e : FrameError} (hidle : r.session.phase = .idle)
    (hd : Request.decode r.inbox = .error e) : r.EndsBy (EndReason.ofRest r.inbox e) := by
  cases hinbox : r.inbox with
  | nil => exact endsBy_of_nil hidle hinbox
  | cons tag rest =>
    cases htag : AccessKind.ofTag? tag with
    | none =>
      rw [hinbox] at hd
      rw [EndsBy, settle_of_unknownKind hidle hinbox htag, hangUp_of_ended rfl,
        EndReason.ofRest_of_unknownKind htag hd]
      exact ⟨rfl, rfl⟩
    | some k =>
      cases AccessKind.ofTag?_eq_some_iff.mp htag
      by_cases hshort : r.inbox.length < headerLength
      · rw [Request.decode_of_header_error (Header.decode_of_short hshort)] at hd
        cases hd
        rw [EndReason.ofRest_of_truncated, hinbox]
        exact endsBy_of_shortHeader hidle hinbox (hinbox ▸ hshort)
      · have hlen := Nat.not_lt.mp hshort
        cases hheader : Header.decode r.inbox with
        | error e' =>
          rw [Request.decode_of_header_error hheader] at hd
          cases hd
          obtain ⟨b, rfl⟩ := Header.invalidWidth_of_decode (hinbox ▸ hlen) (hinbox ▸ hheader)
          rw [EndsBy, settle_of_header hidle hinbox hlen, hheader, settle_of_ended rfl,
            hangUp_of_ended rfl]
          exact ⟨rfl, rfl⟩
        | ok h =>
          rw [Request.decode_of_header hheader] at hd
          split at hd
          · rename_i hcut
            cases hd
            rw [EndReason.ofRest_of_truncated]
            exact endsBy_of_shortPayload hidle hinbox hheader hcut
          · cases hd

/-- Frame after frame, a session carries out the requests that decode and answers them. -/
theorem settle_decodeAll {r : Remote} (hidle : r.session.phase = .idle) :
    r.settle =
      settle
        { session := r.session.serveAll (Request.decodeAll r.inbox).1
          inbox := (Request.decodeAll r.inbox).2
          outbox :=
            r.outbox ++ r.session.registers.responses (Request.decodeAll r.inbox).1 } := by
  -- the frames are taken off one by one, as decoding does it
  generalize hbytes : r.inbox = bytes
  fun_induction Request.decodeAll bytes generalizing r with
  | case1 bytes e h =>
    rw [← hbytes]
    simp only [RegisterFile.responses, List.append_nil]
    rfl
  | case2 bytes q h later =>
    rename_i ih
    rw [← hbytes] at h
    rw [settle_of_decode hidle h, hbytes, ih (Session.phase_serve _ q) rfl]
    simp only [Session.registers_serve, RegisterFile.responses, List.append_assoc]
    rfl

end Remote

end RemoteRegisters
