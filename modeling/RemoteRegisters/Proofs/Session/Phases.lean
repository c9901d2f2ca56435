import RemoteRegisters.Proofs.Frame.Image
import RemoteRegisters.Proofs.Session.Reception

/-!
# What a session holds of an unfinished frame

The phase of a session is all that it keeps of the frame it is reading. The bytes
that it has taken up can be read back off the phase (`Phase.begun`), so that none
is lost between two transfers: whatever the session makes of the bytes it asked
for, they stand behind the bytes it had (`Session.Reception`).

## Main definitions

- `Session.Phase.begun` — the bytes of the current frame that the session has taken up
- `Request.Malformed` — bytes at whose last one a frame turns out to be malformed
- `Session.Reception` — what a session makes of the bytes that it asked for
-/

namespace RemoteRegisters

/-! ### Malformed frames -/

/-- A frame turns out to be malformed at the last of the bytes. -/
inductive Request.Malformed (bytes : List UInt8) : FrameError → Prop where
  | unknownKind {b : UInt8} :
      AccessKind.ofTag? b = none → bytes = [b] → Malformed bytes (.unknownKind b)
  | invalidWidth {b : UInt8} :
      bytes.length = headerLength → bytes.getLast? = some b →
        Header.decode bytes = .error (.invalidWidth b) → Malformed bytes (.invalidWidth b)

/-- Whatever comes behind a malformed frame, it stays malformed. -/
theorem Request.Malformed.decode_append {bytes tail : List UInt8} {e : FrameError}
    (h : Malformed bytes e) (hlen : headerLength ≤ (bytes ++ tail).length) :
    decode (bytes ++ tail) = .error e := by
  apply decode_of_header_error
  cases h with
  | unknownKind htag hbytes =>
    subst hbytes
    exact Header.decode_of_unknownKind htag hlen
  | invalidWidth hwhole _ hd =>
    rw [← Header.decode_take hlen, List.take_left' hwhole, hd]

theorem Header.getLast?_of_invalidWidth {bytes : List UInt8} {b : UInt8}
    (hlen : bytes.length = headerLength) (hd : decode bytes = .error (.invalidWidth b)) :
    bytes.getLast? = some b := by
  match bytes, hlen with
  | [_, _, _, _, _, _], _ =>
    simp only [decode] at hd
    split at hd
    · cases hd
    · split at hd <;> cases hd
      rfl

namespace Session

/-! ### The bytes of the current frame -/

namespace Phase

/-- The bytes of the current frame that have been taken up. -/
def begun : Phase → List UInt8
  | idle => []
  | header kind => [kind.tag]
  | payload addr width => Header.encode ⟨.write, addr, width⟩
  | responding _ => []
  | ended _ => []

/-- The length of the current frame, as far as it is known. -/
def expected : Phase → Nat
  | payload _ width => headerLength + width.bytes
  | _ => headerLength

variable {p : Phase} {got : List UInt8}

/-- A session waits for bytes in three of its phases. -/
theorem waiting_cases (h : p.distance = 1) :
    p = idle ∨ (∃ kind, p = header kind) ∨ ∃ addr w, p = payload addr w := by
  cases p with
  | idle => exact .inl rfl
  | header kind => exact .inr (.inl ⟨kind, rfl⟩)
  | payload addr w => exact .inr (.inr ⟨addr, w, rfl⟩)
  | responding _ => cases h
  | ended _ => cases h

theorem length_begun_add_demand_le (h : p.distance = 1) :
    p.begun.length + p.demand ≤ p.expected := by
  obtain rfl | ⟨kind, rfl⟩ | ⟨addr, w, rfl⟩ := waiting_cases h
  · decide
  · exact Nat.le_refl headerLength
  · exact Nat.le_of_eq (congrArg (· + w.bytes) (Header.length_encode _))

/-- As long as the session waits, what it has of the frame is no frame yet. -/
theorem decode_begun_append (h : p.distance = 1) (hlen : got.length < p.demand) :
    Request.decode (p.begun ++ got) =
      .error (.truncated p.expected (p.begun ++ got).length) := by
  obtain rfl | ⟨kind, rfl⟩ | ⟨addr, w, rfl⟩ := waiting_cases h
  · cases List.eq_nil_of_length_eq_zero (Nat.lt_one_iff.mp hlen)
    rfl
  · refine Request.decode_of_header_error (Header.decode_of_short ?_)
    exact Nat.succ_lt_succ hlen
  · rw [begun, Request.decode_of_header (Header.decode_encode_append _ got)]
    refine if_pos ?_
    rw [List.length_append, Header.length_encode]
    exact Nat.add_lt_add_left hlen headerLength

end Phase

/-! ### Bytes that come, and bytes that do not -/

/-- What a session makes of bytes that it asked for. With the bytes that it had they are a frame,
which it carries out, or the beginning of one, or malformed. -/
inductive Reception (s : Session) (bytes : List UInt8) : Session → Prop where
  | applied {q : Request} :
      q.fit = q → q.encode = s.phase.begun ++ bytes → Reception s bytes (s.apply q)
  | continued {p : Phase} :
      p.distance = 1 → p.begun = s.phase.begun ++ bytes →
        Reception s bytes { s with phase := p }
  | malformed {e : FrameError} :
      Request.Malformed (s.phase.begun ++ bytes) e →
        Reception s bytes (s.finish (.protocol e))

variable {s : Session} {bytes : List UInt8}

theorem reception_of_idle (hphase : s.phase = .idle) (tag : UInt8) :
    s.Reception [tag] (s.received [tag]) := by
  have hbegun : s.phase.begun ++ [tag] = [tag] := by rw [hphase]; rfl
  simp only [received, hphase]
  cases htag : AccessKind.ofTag? tag with
  | none => exact .malformed (.unknownKind htag hbegun)
  | some kind =>
    refine .continued rfl ?_
    rw [hbegun, AccessKind.ofTag?_eq_some_iff.mp htag]
    rfl

theorem reception_of_header {kind : AccessKind} (hphase : s.phase = .header kind)
    (hlen : bytes.length = headerLength - 1) : s.Reception bytes (s.received bytes) := by
  have hbegun : s.phase.begun ++ bytes = kind.tag :: bytes := by rw [hphase]; rfl
  have hwhole : (kind.tag :: bytes).length = headerLength := congrArg (· + 1) hlen
  simp only [received, hphase]
  cases hd : Header.decode (kind.tag :: bytes) with
  | error e =>
    obtain ⟨b, rfl⟩ := Header.invalidWidth_of_decode (Nat.le_of_eq hwhole.symm) hd
    refine .malformed (.invalidWidth ?_ ?_ ?_) <;> rw [hbegun]
    · exact hwhole
    · exact Header.getLast?_of_invalidWidth hwhole hd
    · exact hd
  | ok h =>
    have hheader : h.encode = s.phase.begun ++ bytes := by
      rw [hbegun]
      exact Header.encode_of_decode hwhole hd
    obtain ⟨kind', addr, w⟩ := h
    cases kind' with
    | read => exact .applied rfl ((List.append_nil _).trans hheader)
    | write => exact .continued rfl hheader

theorem reception_of_payload {addr : UInt32} {w : Width} (hphase : s.phase = .payload addr w)
    (hlen : bytes.length = w.bytes) : s.Reception bytes (s.received bytes) := by
  have hfill : (Header.fill ⟨.write, addr, w⟩ bytes).encode = s.phase.begun ++ bytes := by
    rw [hphase]
    exact Header.encode_fill hlen
  rw [Remote.received_payload hphase hlen]
  exact .applied (Request.fit_ofWrite addr w _) hfill

/-- Nothing of the bytes that a session asked for is lost. -/
theorem reception_received (hwait : s.phase.distance = 1) (hlen : bytes.length = s.phase.demand) :
    s.Reception bytes (s.received bytes) := by
  obtain hphase | ⟨kind, hphase⟩ | ⟨addr, w, hphase⟩ := Phase.waiting_cases hwait <;>
    rw [hphase] at hlen
  · obtain ⟨tag, rfl⟩ := List.length_eq_one_iff.mp hlen
    exact reception_of_idle hphase tag
  · exact reception_of_header hphase hlen
  · exact reception_of_payload hphase hlen

/-- The stream ends before the bytes that a session asked for have come: in order if there is nothing
of a frame yet, and else within the frame. -/
theorem receiveFailed_endOfStream {got : List UInt8} (hwait : s.phase.distance = 1)
    (hlen : got.length < s.phase.demand) :
    s.receiveFailed (.endOfStream s.phase.demand got.length) =
      s.finish
        (if s.phase.begun ++ got = [] then .peerClosed
        else .truncated s.phase.expected (s.phase.begun ++ got).length) := by
  obtain hphase | ⟨kind, hphase⟩ | ⟨addr, w, hphase⟩ := Phase.waiting_cases hwait <;>
    rw [hphase] at hlen ⊢
  · cases List.eq_nil_of_length_eq_zero (Nat.lt_one_iff.mp hlen)
    simp only [receiveFailed, hphase]
    rfl
  · simp only [receiveFailed, hphase, EndReason.ofMidFrame_endOfStream]
    rw [Nat.add_comm]
    rfl
  · simp only [receiveFailed, hphase, EndReason.ofMidFrame_endOfStream]
    rw [List.length_append, Phase.begun, Header.length_encode]
    rfl

theorem receiveFailed_io (hwait : s.phase.distance = 1) (cause : IoError) :
    s.receiveFailed (.io cause) = s.finish (.transport (.io cause)) := by
  obtain hphase | ⟨kind, hphase⟩ | ⟨addr, w, hphase⟩ := Phase.waiting_cases hwait <;>
    simp only [receiveFailed, hphase, EndReason.ofMidFrame]

end Session

end RemoteRegisters
