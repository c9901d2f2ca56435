import RemoteRegisters.Proofs.Frame.Image

/-!
# Which bytes are a frame

A byte string is read as a request exactly if it begins with the frame of that
request, and only requests that a frame carries whole are read. Every other byte
string has a defect. The defects are looked for in a fixed order, and the first
one is what is reported (`Request.firstDefect?`). It is always one of the header,
or of the length: once the payload is known to be there, nothing can be wrong
with it.

## Main definitions

- `Request.firstDefect?` — what is wrong with the frame at the head of a byte string
-/

namespace RemoteRegisters

theorem AccessKind.ofTag?_eq_none_iff {b : UInt8} : ofTag? b = none ↔ b ≠ 0x52 ∧ b ≠ 0x57 := by
  unfold ofTag?
  split
  · rename_i h
    simp [h, tag]
  · rename_i hread
    split
    · rename_i h
      simp [h, tag]
    · rename_i hwrite
      exact iff_of_true rfl ⟨hread, hwrite⟩

theorem Width.ofByte?_eq_none_iff {b : UInt8} : ofByte? b = none ↔ b ≠ 1 ∧ b ≠ 2 ∧ b ≠ 4 := by
  constructor
  · intro h
    refine ⟨?_, ?_, ?_⟩ <;> rintro rfl <;> cases h
  · rintro ⟨h1, h2, h4⟩
    cases hw : ofByte? b with
    | none => rfl
    | some w =>
      have htag := ofByte?_eq_some_iff.mp hw
      cases w with
      | byte => exact absurd htag h1
      | half => exact absurd htag h2
      | word => exact absurd htag h4

namespace Header

/-- The request of a header and its payload is one that a frame carries whole. -/
theorem fit_fill (h : Header) (payload : List UInt8) : (h.fill payload).fit = h.fill payload := by
  obtain ⟨kind, addr, w⟩ := h
  cases kind with
  | read => rfl
  | write => exact Request.fit_ofWrite addr w _

/-- A payload that has all its bytes is read. -/
theorem decodeValue_payload {bytes : List UInt8} {h : Header} (hwrite : h.kind = .write)
    (hlen : headerLength + h.payloadLength ≤ bytes.length) :
    ∃ value, decodeValue ((bytes.drop headerLength).take h.payloadLength) h.width = .ok value := by
  have hpayload : h.payloadLength = h.width.bytes := by rw [payloadLength, hwrite]
  have hwhole := length_take_payload hlen
  rw [hpayload] at hwhole ⊢
  exact ⟨_, if_neg (by rw [hwhole]; exact Nat.lt_irrefl _)⟩

end Header

namespace Request

/-! ### Accepted bytes -/

/-- The bytes that a request was read from begin with its frame, and the frame carries it whole. -/
theorem encode_isPrefix_of_decode {bytes : List UInt8} {r : Request} (h : decode bytes = .ok r) :
    r.fit = r ∧ r.encode <+: bytes := by
  cases hd : Header.decode bytes with
  | error e =>
    rw [decode_of_header_error hd] at h
    cases h
  | ok header =>
    rw [decode_of_header hd] at h
    split at h
    · cases h
    · rename_i hlen
      have hsix := Header.length_of_decode hd
      have hencode : header.encode = bytes.take headerLength := by
        refine Header.encode_of_decode ?_ ?_
        · rw [List.length_take]
          omega
        · rw [Header.decode_take hsix, hd]
      cases h
      refine ⟨header.fit_fill _, ?_⟩
      rw [Header.encode_fill (Header.length_take_payload (Nat.not_lt.mp hlen)), hencode,
        ← List.take_add]
      exact List.take_prefix _ _

theorem decode_eq_ok_iff {bytes : List UInt8} {r : Request} :
    decode bytes = .ok r ↔ r.Canonical ∧ r.encode <+: bytes := by
  rw [← fit_eq_self_iff]
  constructor
  · exact encode_isPrefix_of_decode
  · rintro ⟨hfit, tail, rfl⟩
    rw [decode_encode_append, hfit]

/-! ### Defects -/

/-- What is wrong with the frame at the head of a byte string, if anything is: the header is not
there, or it names no kind, or no width, or the value of a write is not there. -/
def firstDefect? (bytes : List UInt8) : Option FrameError :=
  let kindByte := bytes.getD 0 0
  let widthByte := bytes.getD 5 0
  if bytes.length < 6 then some (.truncated 6 bytes.length)
  else if kindByte ≠ 0x52 ∧ kindByte ≠ 0x57 then some (.unknownKind kindByte)
  else if widthByte ≠ 1 ∧ widthByte ≠ 2 ∧ widthByte ≠ 4 then some (.invalidWidth widthByte)
  else if kindByte = 0x57 ∧ bytes.length < 6 + widthByte.toNat then
    some (.truncated (6 + widthByte.toNat) bytes.length)
  else none

theorem firstDefect?_of_short {bytes : List UInt8} (hlen : bytes.length < headerLength) :
    firstDefect? bytes = some (.truncated headerLength bytes.length) :=
  if_pos hlen

section SixBytes

variable {tag a₀ a₁ a₂ a₃ widthTag : UInt8} {rest : List UInt8}

theorem firstDefect?_of_unknownKind (hkind : AccessKind.ofTag? tag = none) :
    firstDefect? (tag :: a₀ :: a₁ :: a₂ :: a₃ :: widthTag :: rest) = some (.unknownKind tag) := by
  have hlong : ¬(tag :: a₀ :: a₁ :: a₂ :: a₃ :: widthTag :: rest).length < 6 := by simp
  rw [firstDefect?, if_neg hlong]
  exact if_pos (AccessKind.ofTag?_eq_none_iff.mp hkind)

theorem firstDefect?_of_invalidWidth (kind : AccessKind) (hwidth : Width.ofByte? widthTag = none) :
    firstDefect? (kind.tag :: a₀ :: a₁ :: a₂ :: a₃ :: widthTag :: rest) =
      some (.invalidWidth widthTag) := by
  have hlong : ¬(kind.tag :: a₀ :: a₁ :: a₂ :: a₃ :: widthTag :: rest).length < 6 := by simp
  have hkind : ¬(kind.tag ≠ 0x52 ∧ kind.tag ≠ 0x57) := by cases kind <;> decide
  rw [firstDefect?, if_neg hlong]
  exact (if_neg hkind).trans (if_pos (Width.ofByte?_eq_none_iff.mp hwidth))

/-- A whole header leaves one defect to look for: that a write has too little of its value. -/
theorem firstDefect?_of_header (h : Header) :
    let bytes := h.kind.tag :: a₀ :: a₁ :: a₂ :: a₃ :: h.width.tag :: rest
    firstDefect? bytes =
      if bytes.length < headerLength + h.payloadLength then
        some (.truncated (headerLength + h.payloadLength) bytes.length)
      else none := by
  intro bytes
  obtain ⟨kind, addr, w⟩ := h
  have hlong : ¬bytes.length < 6 := by simp [bytes]
  have hkind : ¬(kind.tag ≠ 0x52 ∧ kind.tag ≠ 0x57) := by cases kind <;> decide
  have hwidth : ¬(w.tag ≠ 1 ∧ w.tag ≠ 2 ∧ w.tag ≠ 4) := by cases w <;> decide
  rw [firstDefect?, if_neg hlong]
  refine (if_neg hkind).trans ((if_neg hwidth).trans ?_)
  cases kind with
  | read =>
    -- a read has no payload, so six bytes are enough
    have hread : ¬(AccessKind.read.tag = 0x57 ∧ bytes.length < 6 + w.tag.toNat) :=
      fun hwrite => absurd hwrite.1 (by decide)
    exact (if_neg hread).trans (if_neg hlong).symm
  | write =>
    have hwrite : AccessKind.write.tag = 0x57 := rfl
    change (if AccessKind.write.tag = 0x57 ∧ bytes.length < 6 + w.tag.toNat then
      some (FrameError.truncated (6 + w.tag.toNat) bytes.length) else none) = _
    simp only [hwrite, true_and, Width.toNat_tag]
    rfl

end SixBytes

/-- The error of a byte string that is not read is its first defect. -/
theorem decode_eq_error_iff {bytes : List UInt8} {e : FrameError} :
    decode bytes = .error e ↔ firstDefect? bytes = some e := by
  by_cases hshort : bytes.length < headerLength
  · rw [decode_of_header_error (Header.decode_of_short hshort), firstDefect?_of_short hshort,
      Except.error.injEq, Option.some.injEq]
  · match bytes, Nat.not_lt.mp hshort with
    | tag :: a₀ :: a₁ :: a₂ :: a₃ :: widthTag :: rest, hsix =>
      cases hkind : AccessKind.ofTag? tag with
      | none =>
        rw [decode_of_header_error (Header.decode_of_unknownKind hkind hsix),
          firstDefect?_of_unknownKind hkind, Except.error.injEq, Option.some.injEq]
      | some kind =>
        cases AccessKind.ofTag?_eq_some_iff.mp hkind
        cases hwidth : Width.ofByte? widthTag with
        | none =>
          have hd : Header.decode (kind.tag :: a₀ :: a₁ :: a₂ :: a₃ :: widthTag :: rest) =
              .error (.invalidWidth widthTag) := by simp only [Header.decode, hkind, hwidth]
          rw [decode_of_header_error hd, firstDefect?_of_invalidWidth kind hwidth,
            Except.error.injEq, Option.some.injEq]
        | some w =>
          cases Width.ofByte?_eq_some_iff.mp hwidth
          have hd : Header.decode (kind.tag :: a₀ :: a₁ :: a₂ :: a₃ :: w.tag :: rest) =
              .ok ⟨kind, valueOfBytes [a₀, a₁, a₂, a₃], w⟩ := by
            simp only [Header.decode, hkind, hwidth]
          rw [decode_of_header hd,
            firstDefect?_of_header ⟨kind, valueOfBytes [a₀, a₁, a₂, a₃], w⟩]
          split <;> simp

/-- Of several defects the first is reported: here the kind and not the width. -/
example : decode [0x58, 0, 0, 0, 0, 8] = .error (.unknownKind 0x58) :=
  rfl

/-- What reading accepts and what it reports. A byte string is read as a request exactly if the
request fits its frame and the byte string begins with that frame. It is refused with an error exactly
if that is its first defect. Of a payload whose length was checked, reading the value never fails. -/
theorem decode_exact (bytes : List UInt8) :
    (∀ r, decode bytes = .ok r ↔ r.Canonical ∧ r.encode <+: bytes) ∧
      (∀ e, decode bytes = .error e ↔ firstDefect? bytes = some e) ∧
      ∀ h : Header, Header.decode bytes = .ok h →
        headerLength + h.payloadLength ≤ bytes.length →
        let payload := (bytes.drop headerLength).take h.payloadLength
        (h.kind = .write → ∃ value, decodeValue payload h.width = .ok value) ∧
          decode bytes = h.complete payload ∧ ∃ r, h.complete payload = .ok r := by
  refine ⟨fun r => decode_eq_ok_iff, fun e => decode_eq_error_iff, fun h hd hlen => ?_⟩
  have hcomplete := Header.complete_of_length (Header.length_take_payload hlen)
  refine ⟨fun hwrite => Header.decodeValue_payload hwrite hlen, ?_, _, hcomplete⟩
  rw [decode_of_header hd, if_neg (Nat.not_lt.mpr hlen), hcomplete]

/-- A write of two bytes, with the first byte of another frame behind it. -/
theorem decode_exact_half_write :
    let bytes : List UInt8 := [0x57, 8, 0, 0, 0, 2, 0xEF, 0xBE, 0x52]
    let h : Header := ⟨.write, 8, .half⟩
    Header.decode bytes = .ok h ∧ headerLength + h.payloadLength ≤ bytes.length ∧
      (∃ value, decodeValue [0xEF, 0xBE] .half = .ok value) ∧
      decode bytes = h.complete [0xEF, 0xBE] ∧ decode bytes = .ok (write 8 .half 0xBEEF) := by
  intro bytes h
  obtain ⟨haccepted, -, hpayload⟩ := decode_exact bytes
  have hd : Header.decode bytes = .ok h := rfl
  have hlen : headerLength + h.payloadLength ≤ bytes.length := by decide
  obtain ⟨hvalue, hcomplete, -⟩ := hpayload h hd hlen
  have hframe : (write 8 .half 0xBEEF).encode <+: bytes := ⟨[0x52], rfl⟩
  exact ⟨hd, hlen, hvalue rfl, hcomplete, (haccepted _).mpr ⟨by decide, hframe⟩⟩

end Request

end RemoteRegisters
