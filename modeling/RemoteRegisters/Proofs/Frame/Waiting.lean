import RemoteRegisters.Proofs.Frame.Acceptance

/-!
# Frames that have not come whole

Bytes of a stream come bit by bit, and a reader may look at them before a frame is
whole. What it has read, or what it has found malformed, no later byte changes.
Only the answer that bytes are missing is preliminary: it stands until as many
bytes have come as it asks for, and no longer (`Request.decode_append_of_truncated`,
`Request.decode_ne_truncated_of_le`).

The number of bytes that it asks for is never too large. It is the length of a
header as long as that is not there, and then the length of the frame. A reader
that waits for exactly so many bytes waits twice at most, and stops at the end of
the frame (`Request.decodeWaiting_of_lt`).

## Main definitions

- `Request.decodeWaiting` — a reader that waits for as many bytes as it is told to expect
-/

namespace RemoteRegisters

/-- Behind the six bytes of a header nothing matters to it. -/
theorem Header.decode_append {bytes : List UInt8} (hlen : headerLength ≤ bytes.length)
    (tail : List UInt8) : decode (bytes ++ tail) = decode bytes := by
  have hboth : headerLength ≤ (bytes ++ tail).length := by
    rw [List.length_append]
    omega
  rw [← decode_take hboth, List.take_append_of_le_length hlen, decode_take hlen]

/-- A header is reported as truncated exactly if it is not there. -/
theorem Header.length_lt_of_truncated {bytes : List UInt8} {expected actual : Nat}
    (hd : decode bytes = .error (.truncated expected actual)) :
    bytes.length < headerLength ∧ expected = headerLength ∧ actual = bytes.length := by
  obtain hshort | hlong := Nat.lt_or_ge bytes.length headerLength
  · rw [decode_of_short hshort] at hd
    cases hd
    exact ⟨hshort, rfl, rfl⟩
  · match bytes, hlong with
    | tag :: a₀ :: a₁ :: a₂ :: a₃ :: widthTag :: rest, _ =>
      simp only [decode] at hd
      split at hd
      · cases hd
      · split at hd <;> cases hd

namespace Request

variable {bytes tail : List UInt8} {expected actual : Nat}

/-! ### Bytes that come later -/

/-- Bytes are missing of the header or, behind a whole header, of the payload. -/
theorem truncated_cases (hd : decode bytes = .error (.truncated expected actual)) :
    actual = bytes.length ∧ bytes.length < expected ∧
      (bytes.length < headerLength ∧ expected = headerLength ∨
        ∃ h, Header.decode bytes = .ok h ∧ expected = headerLength + h.payloadLength) := by
  cases hheader : Header.decode bytes with
  | error e =>
    rw [decode_of_header_error hheader] at hd
    cases hd
    obtain ⟨hshort, rfl, rfl⟩ := Header.length_lt_of_truncated hheader
    exact ⟨rfl, hshort, .inl ⟨hshort, rfl⟩⟩
  | ok h =>
    rw [decode_of_header hheader] at hd
    split at hd
    · rename_i hcut
      cases hd
      exact ⟨rfl, hcut, .inr ⟨h, rfl, rfl⟩⟩
    · cases hd

/-- What was read is not changed by later bytes. -/
theorem decode_append_of_ok {r : Request} (hd : decode bytes = .ok r) (tail : List UInt8) :
    decode (bytes ++ tail) = .ok r := by
  obtain ⟨hcanonical, hfront⟩ := decode_eq_ok_iff.mp hd
  exact decode_eq_ok_iff.mpr ⟨hcanonical, hfront.trans (List.prefix_append _ _)⟩

/-- A malformed header is not mended by later bytes. -/
theorem decode_append_of_malformed {e : FrameError} (hd : decode bytes = .error e)
    (hwhole : ∀ expected actual, e ≠ .truncated expected actual) (tail : List UInt8) :
    decode (bytes ++ tail) = .error e := by
  cases hheader : Header.decode bytes with
  | ok h =>
    -- behind a whole header only bytes can be missing
    rw [decode_of_header hheader] at hd
    split at hd
    · cases hd
      exact absurd rfl (hwhole _ _)
    · cases hd
  | error e' =>
    rw [decode_of_header_error hheader] at hd
    cases hd
    obtain hshort | hlong := Nat.lt_or_ge bytes.length headerLength
    · rw [Header.decode_of_short hshort] at hheader
      cases hheader
      exact absurd rfl (hwhole _ _)
    · rw [← Header.decode_append hlong tail] at hheader
      exact decode_of_header_error hheader

/-- As long as too few bytes have come, the same number is asked for. -/
theorem decode_append_of_truncated (hd : decode bytes = .error (.truncated expected actual))
    (hlen : (bytes ++ tail).length < expected) :
    decode (bytes ++ tail) = .error (.truncated expected (bytes ++ tail).length) := by
  obtain ⟨-, -, ⟨-, rfl⟩ | ⟨h, hheader, rfl⟩⟩ := truncated_cases hd
  · exact decode_of_header_error (Header.decode_of_short hlen)
  · rw [← Header.decode_append (Header.length_of_decode hheader) tail] at hheader
    rw [decode_of_header hheader, if_pos hlen]

/-- A number of bytes that have come is not asked for. -/
theorem decode_ne_truncated_of_le (hlen : expected ≤ bytes.length) :
    decode bytes ≠ .error (.truncated expected actual) := fun hd =>
  absurd (truncated_cases hd).2.1 (Nat.not_lt.mpr hlen)

/-! ### A reader that waits -/

/-- What a reader comes to that may wait so many times. It holds the first bytes of a stream. If they
are too few, it waits until it holds as many as it is told to expect, and tries again. -/
def decodeWaiting (stream : List UInt8) :
    (waits held : Nat) → Except FrameError Request × Nat
  | 0, held => (decode (stream.take held), held)
  | waits + 1, held =>
      match decode (stream.take held) with
      | .error (.truncated expected _) => decodeWaiting stream waits expected
      | result => (result, held)

theorem decodeWaiting_of_truncated {stream : List UInt8} {waits held : Nat}
    (hd : decode (stream.take held) = .error (.truncated expected actual)) :
    decodeWaiting stream (waits + 1) held = decodeWaiting stream waits expected := by
  simp only [decodeWaiting, hd]

theorem decodeWaiting_of_ok {stream : List UInt8} {held : Nat} {r : Request}
    (hd : decode (stream.take held) = .ok r) (waits : Nat) :
    decodeWaiting stream waits held = (.ok r, held) := by
  cases waits <;> simp only [decodeWaiting, hd]

variable {r : Request}

/-- A proper part of a frame is told to expect a header or the frame. -/
theorem decode_take_frame {held : Nat} (hheld : held < r.frameLength) (tail : List UInt8) :
    ∃ expected, decode ((r.encode ++ tail).take held) = .error (.truncated expected held) ∧
      (held < headerLength ∧ expected = headerLength ∨ expected = r.frameLength) := by
  have hle : held ≤ r.encode.length := by
    rw [length_encode]
    exact Nat.le_of_lt hheld
  have hlen : (r.encode.take held).length = held := List.length_take_of_le hle
  rw [List.take_append_of_le_length hle]
  obtain ⟨expected, -, hd⟩ := decode_of_prefix (List.take_prefix held r.encode) (by rwa [hlen])
  rw [hlen] at hd
  refine ⟨expected, hd, ?_⟩
  obtain ⟨-, -, ⟨hshort, rfl⟩ | ⟨h, hheader, rfl⟩⟩ := truncated_cases hd
  · exact .inl ⟨hlen ▸ hshort, rfl⟩
  · -- the header of the part is the header of the frame
    have hsame := Header.decode_append (Header.length_of_decode hheader) (r.encode.drop held)
    rw [List.take_append_drop, hheader, encode, Header.decode_encode_append] at hsame
    cases hsame
    exact .inr r.frameLength_eq.symm

/-- Two waits are enough for a frame, and the reader then holds the frame and nothing else. -/
theorem decodeWaiting_of_lt {held : Nat} (hheld : held < r.frameLength) (tail : List UInt8)
    (waits : Nat) :
    decodeWaiting (r.encode ++ tail) (waits + 2) held = (.ok r.fit, r.frameLength) := by
  have hframe : decode ((r.encode ++ tail).take r.frameLength) = .ok r.fit := by
    rw [List.take_left' r.length_encode, decode_encode]
  -- from a whole header on, one wait is enough
  have hone {held waits : Nat} (hheld : held < r.frameLength) (hheader : headerLength ≤ held) :
      decodeWaiting (r.encode ++ tail) (waits + 1) held = (.ok r.fit, r.frameLength) := by
    obtain ⟨expected, hd, ⟨hshort, -⟩ | rfl⟩ := decode_take_frame hheld tail
    · omega
    · rw [decodeWaiting_of_truncated hd, decodeWaiting_of_ok hframe]
  obtain ⟨expected, hd, ⟨-, rfl⟩ | rfl⟩ := decode_take_frame hheld tail
  · rw [decodeWaiting_of_truncated hd]
    obtain hless | hwhole := Nat.lt_or_eq_of_le r.headerLength_le_frameLength
    · exact hone hless (Nat.le_refl _)
    · rw [hwhole, decodeWaiting_of_ok hframe]
  · rw [decodeWaiting_of_truncated hd, decodeWaiting_of_ok hframe]

/-- Reading a frame while its bytes still come. What was read, or found malformed, stays so whatever
comes. Missing bytes are reported with the number that have come, and the same number is asked for
until it has come, but not after. Of a proper part of a frame no more bytes are asked for than the
frame has. So a reader that waits for exactly as many waits twice at most. It then holds the frame, and
no byte behind it, and has read its request as far as the frame carries it: unchanged exactly if it is
a read or its value fits its width. -/
theorem decode_incremental (bytes tail : List UInt8) :
    (∀ r, decode bytes = .ok r → decode (bytes ++ tail) = .ok r) ∧
      (∀ tag, decode bytes = .error (.unknownKind tag) →
        decode (bytes ++ tail) = .error (.unknownKind tag)) ∧
      (∀ tag, decode bytes = .error (.invalidWidth tag) →
        decode (bytes ++ tail) = .error (.invalidWidth tag)) ∧
      (∀ expected actual, decode bytes = .error (.truncated expected actual) →
        actual = bytes.length ∧ bytes.length < expected ∧
          ((bytes ++ tail).length < expected →
            decode (bytes ++ tail) = .error (.truncated expected (bytes ++ tail).length)) ∧
          (expected ≤ (bytes ++ tail).length →
            ∀ n, decode (bytes ++ tail) ≠ .error (.truncated expected n))) ∧
      ∀ (r : Request) (part : List UInt8), part <+: r.encode → part ≠ r.encode →
        (∃ expected, expected ≤ r.frameLength ∧
          decode part = .error (.truncated expected part.length)) ∧
        (∀ waits, decodeWaiting (r.encode ++ tail) (waits + 2) part.length =
          (.ok r.fit, r.encode.length)) ∧
        (r.fit = r ↔ r.Canonical) := by
  refine ⟨fun r hd => decode_append_of_ok hd tail, fun tag hd => ?_, fun tag hd => ?_, ?_, ?_⟩
  · exact decode_append_of_malformed hd (fun _ _ h => by cases h) tail
  · exact decode_append_of_malformed hd (fun _ _ h => by cases h) tail
  · intro expected actual hd
    obtain ⟨hactual, hless, -⟩ := truncated_cases hd
    exact ⟨hactual, hless, decode_append_of_truncated hd, fun hlen n => decode_ne_truncated_of_le hlen⟩
  · intro r part hfront hne
    have hlen := length_lt_frameLength hfront hne
    have htorn := decode_of_prefix hfront hlen
    refine ⟨htorn, fun waits => ?_, fit_eq_self_iff⟩
    rw [length_encode]
    exact decodeWaiting_of_lt hlen tail waits

/-- A read, two malformed headers, a write with half of its value, and a reader that begins with
nothing and has another frame behind the one that it waits for. -/
theorem decode_incremental_torn_write :
    let r : Request := .write 8 .half 0xBEEF
    let half : List UInt8 := [0x57, 8, 0, 0, 0, 2, 0xEF]
    decode ([0x52, 4, 0, 0, 0, 2] ++ half) = .ok (.read 4 .half) ∧
      decode ([0x58, 0, 0, 0, 0, 8] ++ half) = .error (.unknownKind 0x58) ∧
      decode ([0x52, 0, 0, 0, 0, 8] ++ half) = .error (.invalidWidth 8) ∧
      decode half = .error (.truncated 8 7) ∧
      decode (half ++ [0xBE]) ≠ .error (.truncated 8 8) ∧
      decode ([0x57, 8, 0, 0] ++ [0]) = .error (.truncated 6 5) ∧
      decodeWaiting (r.encode ++ half) 2 0 = (.ok r, 8) := by
  intro r half
  have hwritten := (decode_incremental half [0xBE]).2.2.2
  have hheader := (decode_incremental [0x57, 8, 0, 0] [0]).2.2.2.1
  refine ⟨(decode_incremental _ half).1 _ rfl, (decode_incremental _ half).2.1 _ rfl,
    (decode_incremental _ half).2.2.1 _ rfl, rfl, ?_, ?_, ?_⟩
  · exact (hwritten.1 8 7 rfl).2.2.2 (by decide) 8
  · exact (hheader 6 4 rfl).2.2.1 (by decide)
  · obtain ⟨-, hreader, hfit⟩ :=
      (decode_incremental [] half).2.2.2.2 r [] List.nil_prefix (by decide)
    exact (hreader 0).trans (by rw [hfit.mpr (by decide)]; rfl)

/-- A value that is too long for its width does not come back, however long the reader waits. -/
theorem decodeWaiting_overlong_write :
    let r : Request := .write 0 .byte 0x1234
    decodeWaiting r.encode 2 0 = (.ok (.write 0 .byte 0x34), r.frameLength) ∧
      ¬∃ waits, (decodeWaiting r.encode waits 0).1 = .ok r := by
  refine ⟨rfl, ?_⟩
  rintro ⟨waits, h⟩
  match waits with
  | 0 => cases h
  | 1 => cases h
  | waits + 2 =>
    have hnone : 0 < frameLength (.write 0 .byte 0x1234) := by decide
    have hcut := decodeWaiting_of_lt hnone [] waits
    rw [List.append_nil] at hcut
    rw [hcut] at h
    exact absurd (Except.ok.inj h) (by decide)

end Request

end RemoteRegisters
