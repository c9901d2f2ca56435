import RemoteRegisters.Frame.Decoding
import RemoteRegisters.Proofs.Access.Truncation

/-!
# Reading back what was written

Decoding looks at the bytes of one frame and leaves all others alone. A frame
that was encoded decodes to its own request, with the value cut to the width
(`Request.fit`), whatever follows it; a list of frames decodes to the list of
its requests (`Request.decodeAll_encode_append`). A frame that is cut off is
reported as truncated, and never as malformed.

## Main definitions

- `Request.fit` — the request that the bytes of a frame can carry
- `Header.fill` — the request of a header and its whole payload
-/

namespace RemoteRegisters

theorem Width.range_bytes (w : Width) : LittleEndian.range w.bytes = w.range := by
  cases w <;> rfl

/-- Reading the bytes of a value gives what the width carries of it. -/
theorem valueOfBytes_encodeValue (value : UInt32) (w : Width) :
    valueOfBytes (encodeValue value w) = w.truncate value.toUInt64 := by
  apply UInt32.toNat_inj.mp
  have hfit : value.toNat % w.range ≤ value.toNat := Nat.mod_le _ _
  have hlt := value.toNat_lt
  rw [valueOfBytes, encodeValue, LittleEndian.ofBytes_toBytes, Width.range_bytes,
    Width.toNat_truncate, UInt32.toNat_ofNat', UInt32.toNat_toUInt64]
  exact Nat.mod_eq_of_lt (by omega)

theorem valueOfBytes_encodeValue_word (addr : UInt32) :
    valueOfBytes (encodeValue addr .word) = addr := by
  rw [valueOfBytes_encodeValue]
  exact Width.truncate_toUInt64_of_lt addr.toNat_lt

theorem encodeValue_word (addr : UInt32) :
    ∃ a₀ a₁ a₂ a₃, encodeValue addr .word = [a₀, a₁, a₂, a₃] :=
  ⟨_, _, _, _, rfl⟩

namespace Header

/-- An encoded header is read back, whatever follows it. -/
theorem decode_encode_append (h : Header) (tail : List UInt8) :
    decode (h.encode ++ tail) = .ok h := by
  obtain ⟨a₀, a₁, a₂, a₃, haddr⟩ := encodeValue_word h.addr
  have hvalue : valueOfBytes [a₀, a₁, a₂, a₃] = h.addr :=
    haddr ▸ valueOfBytes_encodeValue_word h.addr
  simp [encode, haddr, decode, hvalue]

theorem decode_of_short {bytes : List UInt8} (h : bytes.length < headerLength) :
    decode bytes = .error (.truncated headerLength bytes.length) := by
  unfold decode
  split
  · simp [headerLength] at h
    omega
  · rfl

theorem decode_take {bytes : List UInt8} (h : headerLength ≤ bytes.length) :
    decode (bytes.take headerLength) = decode bytes := by
  match bytes, h with
  | _ :: _ :: _ :: _ :: _ :: _ :: _, _ => rfl

/-- With six bytes there, a first byte that names no kind is what is reported. -/
theorem decode_of_unknownKind {tag : UInt8} {rest : List UInt8}
    (hkind : AccessKind.ofTag? tag = none) (hlen : headerLength ≤ (tag :: rest).length) :
    decode (tag :: rest) = .error (.unknownKind tag) := by
  match rest, hlen with
  | _ :: _ :: _ :: _ :: _ :: _, _ => simp [decode, hkind]

theorem exists_cons_of_decode {bytes : List UInt8} {h : Header} (hd : decode bytes = .ok h) :
    ∃ rest, bytes = h.kind.tag :: rest := by
  unfold decode at hd
  split at hd
  · split at hd
    · cases hd
    · rename_i hkind
      split at hd
      · cases hd
      · cases hd
        exact ⟨_, by rw [AccessKind.ofTag?_eq_some_iff.mp hkind]⟩
  · cases hd

/-- Six bytes with a known kind can only have a wrong width. -/
theorem invalidWidth_of_decode {k : AccessKind} {rest : List UInt8} {e : FrameError}
    (hlen : headerLength ≤ (k.tag :: rest).length) (hd : decode (k.tag :: rest) = .error e) :
    ∃ b, e = .invalidWidth b := by
  match rest, hlen with
  | _ :: _ :: _ :: _ :: b :: _, _ =>
    simp only [decode, AccessKind.ofTag?_tag] at hd
    split at hd
    · cases hd
      exact ⟨b, rfl⟩
    · cases hd

def fill (h : Header) (payload : List UInt8) : Request :=
  match h.kind with
  | .read => .read h.addr h.width
  | .write => .ofWrite h.addr h.width (valueOfBytes payload).toUInt64

theorem complete_of_length {h : Header} {payload : List UInt8}
    (hlen : payload.length = h.payloadLength) : h.complete payload = .ok (h.fill payload) := by
  unfold complete fill
  cases hk : h.kind with
  | read => rfl
  | write =>
    simp only [payloadLength, hk] at hlen
    have hwhole : payload.take h.width.bytes = payload := List.take_of_length_le (Nat.le_of_eq hlen)
    simp only [decodeValue, hlen, hwhole, Nat.lt_irrefl, if_false]

/-- The bytes behind a header that are its payload, if they are all there. -/
theorem length_take_payload {bytes : List UInt8} {h : Header}
    (hlen : headerLength + h.payloadLength ≤ bytes.length) :
    ((bytes.drop headerLength).take h.payloadLength).length = h.payloadLength := by
  rw [List.length_take, List.length_drop]
  omega

end Header

namespace Request

/-- The request that the bytes of a frame can carry: a written value is cut to the width. -/
def fit : Request → Request
  | read addr width => read addr width
  | write addr width value => ofWrite addr width value.toUInt64

/-- Only the value of a write can change when a request is cut to its frame. -/
theorem fit_eq_self_iff {r : Request} : r.fit = r ↔ r.Canonical := by
  cases r with
  | read addr w => simp [fit, Canonical]
  | write addr w value =>
    simp only [fit, ofWrite, Canonical, write.injEq, true_and]
    constructor
    · intro h
      rw [← h]
      exact w.toNat_truncate_lt _
    · exact Width.truncate_toUInt64_of_lt

/-- A write that was built from a value of the caller is already cut to its width. -/
@[simp]
theorem fit_ofWrite (addr : UInt32) (w : Width) (value : UInt64) :
    (ofWrite addr w value).fit = ofWrite addr w value :=
  congrArg (write addr w) (Width.truncate_toUInt64_truncate w value)

theorem fill_header_payload (r : Request) : r.header.fill r.payload = r.fit := by
  cases r with
  | read addr w => rfl
  | write addr w value =>
    change ofWrite addr w (valueOfBytes (encodeValue value w)).toUInt64 = _
    rw [valueOfBytes_encodeValue]
    exact fit_ofWrite addr w value.toUInt64

theorem length_payload (r : Request) : r.payload.length = r.header.payloadLength := by
  cases r with
  | read addr w => rfl
  | write addr w value => exact length_encodeValue value w

theorem frameLength_eq (r : Request) :
    r.frameLength = headerLength + r.header.payloadLength := by
  cases r <;> rfl

theorem encode_ne_nil (r : Request) : r.encode ≠ [] := by
  intro h
  have hlen := r.length_encode
  rw [h] at hlen
  exact absurd hlen.symm (Nat.ne_of_gt r.frameLength_pos)

/-- Once the header is read, only the length of the payload is left to check. -/
theorem decode_of_header {bytes : List UInt8} {h : Header} (hd : Header.decode bytes = .ok h) :
    decode bytes =
      if bytes.length < headerLength + h.payloadLength then
        .error (.truncated (headerLength + h.payloadLength) bytes.length)
      else .ok (h.fill ((bytes.drop headerLength).take h.payloadLength)) := by
  simp only [decode, hd]
  split
  · rfl
  · exact Header.complete_of_length (Header.length_take_payload (Nat.not_lt.mp ‹_›))

theorem decode_of_header_error {bytes : List UInt8} {e : FrameError}
    (hd : Header.decode bytes = .error e) : decode bytes = .error e := by
  simp only [decode, hd]

/-- An encoded request is read back as far as its frame carries it, whatever follows the frame. -/
theorem decode_encode_append (r : Request) (tail : List UInt8) :
    decode (r.encode ++ tail) = .ok r.fit := by
  have hheader : Header.decode (r.encode ++ tail) = .ok r.header := by
    rw [encode, List.append_assoc]
    exact r.header.decode_encode_append _
  have hlen : ¬(r.encode ++ tail).length < headerLength + r.header.payloadLength := by
    rw [List.length_append, length_encode, ← frameLength_eq]
    omega
  have hpayload :
      ((r.encode ++ tail).drop headerLength).take r.header.payloadLength = r.payload := by
    rw [encode, List.append_assoc, List.drop_left' r.header.length_encode,
      List.take_left' r.length_payload]
  rw [decode_of_header hheader, if_neg hlen, hpayload, fill_header_payload]

theorem decode_encode (r : Request) : decode r.encode = .ok r.fit := by
  have h := decode_encode_append r []
  rwa [List.append_nil] at h

theorem length_lt_frameLength {r : Request} {bytes : List UInt8} (hfront : bytes <+: r.encode)
    (hne : bytes ≠ r.encode) : bytes.length < r.frameLength := by
  refine Nat.lt_of_le_of_ne (r.length_encode ▸ hfront.length_le) fun heq => hne ?_
  exact hfront.eq_of_length (heq.trans r.length_encode.symm)

/-- A proper prefix of a frame is truncated, and what is expected is no more than the frame. -/
theorem decode_of_prefix {r : Request} {bytes : List UInt8} (hfront : bytes <+: r.encode)
    (hlen : bytes.length < r.frameLength) :
    ∃ expected, expected ≤ r.frameLength ∧
      decode bytes = .error (.truncated expected bytes.length) := by
  by_cases hshort : bytes.length < headerLength
  · exact ⟨headerLength, r.headerLength_le_frameLength,
      decode_of_header_error (Header.decode_of_short hshort)⟩
  · -- with six bytes there, the header is whole and asks for the rest of the frame
    obtain ⟨payload, rfl⟩ : r.header.encode <+: bytes := by
      apply List.prefix_of_prefix_length_le (List.prefix_append _ r.payload) hfront
      rw [Header.length_encode]
      omega
    refine ⟨r.frameLength, Nat.le_refl _, ?_⟩
    rw [decode_of_header (r.header.decode_encode_append payload), ← frameLength_eq, if_pos hlen]

theorem decodeAll_of_ok {bytes : List UInt8} {r : Request} (h : decode bytes = .ok r) :
    decodeAll bytes =
      (r :: (decodeAll (bytes.drop r.frameLength)).1,
        (decodeAll (bytes.drop r.frameLength)).2) := by
  rw [decodeAll]
  split
  · rename_i hd
    rw [h] at hd
    cases hd
  · rename_i hd
    rw [h] at hd
    cases hd
    rfl

theorem decodeAll_of_error {bytes : List UInt8} {e : FrameError} (h : decode bytes = .error e) :
    decodeAll bytes = ([], bytes) := by
  rw [decodeAll]
  split
  · rfl
  · rename_i hd
    rw [h] at hd
    cases hd

/-- What is left when frame after frame has been read cannot be read on. -/
theorem decode_rest (bytes : List UInt8) : ∃ e, decode (decodeAll bytes).2 = .error e := by
  fun_induction decodeAll bytes with
  | case1 bytes e h => exact ⟨e, h⟩
  | case2 bytes r h later ih => exact ih

theorem decode_nil : decode [] = .error (.truncated headerLength 0) :=
  rfl

@[simp]
theorem frameLength_fit (r : Request) : r.fit.frameLength = r.frameLength := by
  cases r <;> rfl

/-- Behind the request that was read first a reader is at the start of the next frame. -/
theorem drop_frameLength_fit (r : Request) (later : List UInt8) :
    (r.encode ++ later).drop r.fit.frameLength = later := by
  rw [frameLength_fit]
  exact List.drop_left' r.length_encode

/-- A list of frames is read back frame by frame, and what follows them is left. -/
theorem decodeAll_encode_append (rs : List Request) (tail : List UInt8) :
    decodeAll (rs.flatMap encode ++ tail) =
      (rs.map fit ++ (decodeAll tail).1, (decodeAll tail).2) := by
  induction rs with
  | nil => rfl
  | cons r rs ih =>
    rw [List.flatMap_cons, List.append_assoc, decodeAll_of_ok (decode_encode_append r _),
      drop_frameLength_fit, ih]
    rfl

end Request

end RemoteRegisters
