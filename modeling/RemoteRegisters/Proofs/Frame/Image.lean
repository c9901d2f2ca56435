import RemoteRegisters.Proofs.Frame.RoundTrip

/-!
# The bytes that a frame was read from

Decoding loses nothing. Six bytes that are read as a header are the encoding of
that header (`Header.encode_of_decode`), and a header and its payload are the
frame of the request that they make up (`Header.encode_fill`). What a session
has taken up of a frame can therefore be recovered from what it made of it. And a
byte string can be taken apart into frames in one way only
(`Request.eq_append_of_frames`).
-/

namespace RemoteRegisters

/-- The bytes of a width hold no more than a register value can. -/
theorem toNat_valueOfBytes {bytes : List UInt8} {w : Width} (hlen : bytes.length = w.bytes) :
    (valueOfBytes bytes).toNat = LittleEndian.ofBytes bytes := by
  have hlt := LittleEndian.ofBytes_lt bytes
  have hrange := w.range_le
  rw [hlen, w.range_bytes] at hlt
  rw [valueOfBytes, UInt32.toNat_ofNat']
  exact Nat.mod_eq_of_lt (by omega)

/-- A value that was read from the bytes of a width fits the width. -/
theorem toNat_valueOfBytes_lt {bytes : List UInt8} {w : Width} (hlen : bytes.length = w.bytes) :
    (valueOfBytes bytes).toNat < w.range := by
  have hlt := LittleEndian.ofBytes_lt bytes
  rwa [hlen, w.range_bytes, ← toNat_valueOfBytes hlen] at hlt

/-- Reading a value from its bytes and writing it again gives the bytes. -/
theorem encodeValue_valueOfBytes {bytes : List UInt8} {w : Width} (hlen : bytes.length = w.bytes) :
    encodeValue (valueOfBytes bytes) w = bytes := by
  rw [encodeValue, toNat_valueOfBytes hlen, ← hlen]
  exact LittleEndian.toBytes_ofBytes bytes

namespace Header

theorem encode_of_decode {bytes : List UInt8} {h : Header} (hlen : bytes.length = headerLength)
    (hd : decode bytes = .ok h) : h.encode = bytes := by
  match bytes, hlen with
  | [tag, a₀, a₁, a₂, a₃, widthTag], _ =>
    simp only [decode] at hd
    split at hd
    · cases hd
    · rename_i kind hkind
      split at hd
      · cases hd
      · rename_i width hwidth
        cases hd
        have haddr : encodeValue (valueOfBytes [a₀, a₁, a₂, a₃]) .word = [a₀, a₁, a₂, a₃] :=
          encodeValue_valueOfBytes rfl
        rw [encode, haddr, AccessKind.ofTag?_eq_some_iff.mp hkind,
          Width.ofByte?_eq_some_iff.mp hwidth]
        rfl

theorem encode_fill {h : Header} {payload : List UInt8} (hlen : payload.length = h.payloadLength) :
    (h.fill payload).encode = h.encode ++ payload := by
  obtain ⟨kind, addr, w⟩ := h
  cases kind with
  | read =>
    cases List.eq_nil_of_length_eq_zero hlen
    rfl
  | write =>
    have hvalue : w.truncate (valueOfBytes payload).toUInt64 = valueOfBytes payload :=
      Width.truncate_toUInt64_of_lt (toNat_valueOfBytes_lt hlen)
    change encode _ ++ encodeValue (w.truncate (valueOfBytes payload).toUInt64) w = _
    rw [hvalue, encodeValue_valueOfBytes hlen]
    rfl

end Header

namespace Request

/-- Frames can be taken apart in one way only: where the frames of some requests begin with those of
others, the former requests begin with the latter, and what follows is made up of frames as well. -/
theorem eq_append_of_frames {rs qs : List Request} {tail : List UInt8}
    (hrs : ∀ r ∈ rs, r.fit = r) (hqs : ∀ q ∈ qs, q.fit = q)
    (h : rs.flatMap encode ++ tail = qs.flatMap encode) :
    ∃ rest, qs = rs ++ rest ∧ tail = rest.flatMap encode := by
  induction rs generalizing qs with
  | nil => exact ⟨qs, rfl, h⟩
  | cons r rs ih =>
    rw [List.flatMap_cons, List.append_assoc] at h
    cases qs with
    | nil => exact absurd (List.append_eq_nil_iff.mp h).1 r.encode_ne_nil
    | cons q qs =>
      rw [List.flatMap_cons] at h
      -- both begin with the request that is read from their common bytes
      have hsame : r = q := by
        have hread := decode_encode_append r (rs.flatMap encode ++ tail)
        rw [h, decode_encode_append, hrs r List.mem_cons_self, hqs q List.mem_cons_self] at hread
        exact (Except.ok.inj hread).symm
      subst hsame
      obtain ⟨rest, hrest, htail⟩ := ih (fun r' hr' => hrs r' (List.mem_cons_of_mem _ hr'))
        (fun q' hq' => hqs q' (List.mem_cons_of_mem _ hq')) (List.append_cancel_left h)
      exact ⟨rest, by rw [hrest, List.cons_append], htail⟩

end Request

end RemoteRegisters
