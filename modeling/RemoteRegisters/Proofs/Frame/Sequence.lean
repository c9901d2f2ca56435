import RemoteRegisters.Proofs.Frame.Image

/-!
# Frames one behind the other

Nothing on the stream marks where a frame begins. A reader that takes one frame
after the other (`Request.decodeMany`) finds each of them only because it has
read the one before to its last byte and no further. Whatever the frames are, and
whatever follows them, it reads as many requests as were written, each as far as
its frame carries it, and is then at the first byte that is not theirs. So the
bytes of a list of frames determine the list, up to what frames cannot carry
(`Request.flatMap_encode_eq_iff`).

## Main definitions

- `Request.decodeMany` — a number of frames read one behind the other
-/

namespace RemoteRegisters

namespace Request

/-- Reads a number of frames, each where the one before ended, and returns what is left. -/
def decodeMany : (count : Nat) → List UInt8 → Except FrameError (List Request × List UInt8)
  | 0, bytes => .ok ([], bytes)
  | count + 1, bytes =>
      match decode bytes with
      | .error e => .error e
      | .ok r =>
          match decodeMany count (bytes.drop r.frameLength) with
          | .error e => .error e
          | .ok (rs, rest) => .ok (r :: rs, rest)

theorem decodeMany_succ_of_ok {bytes rest : List UInt8} {r : Request} {rs : List Request}
    {count : Nat} (hfirst : decode bytes = .ok r)
    (hlater : decodeMany count (bytes.drop r.frameLength) = .ok (rs, rest)) :
    decodeMany (count + 1) bytes = .ok (r :: rs, rest) := by
  simp only [decodeMany, hfirst, hlater]

/-- As many requests are read as were written, and what follows them is left. -/
theorem decodeMany_encode_append (rs : List Request) (tail : List UInt8) :
    decodeMany rs.length (rs.flatMap encode ++ tail) = .ok (rs.map fit, tail) := by
  induction rs with
  | nil => rfl
  | cons r rs ih =>
    rw [List.flatMap_cons, List.append_assoc]
    refine decodeMany_succ_of_ok (decode_encode_append r _) ?_
    rw [drop_frameLength_fit]
    exact ih

/-- A write of too long a value, with another frame behind it and a byte that is no frame. -/
example :
    decodeMany 2 [0x57, 8, 0, 0, 0, 1, 0x34, 0x52, 4, 0, 0, 0, 2, 0xFF] =
      .ok ([(write 8 .byte 0x1234).fit, read 4 .half], [0xFF]) :=
  rfl

/-! ### What a frame carries of its request -/

/-- The frame of a request carries it whole exactly if nothing is cut off its value. -/
theorem decode_encode_eq_self_iff (r : Request) : decode r.encode = .ok r ↔ r.Canonical := by
  rw [decode_encode, Except.ok.injEq, fit_eq_self_iff]

theorem decode_header_encode (r : Request) :
    Header.decode (r.encode.take headerLength) = .ok r.header := by
  have hheader : r.encode.take headerLength = r.header.encode :=
    List.take_left' r.header.length_encode
  have h := r.header.decode_encode_append []
  rw [List.append_nil] at h
  rw [hheader, h]

/-- What is cut off a value does not show in the frame. -/
theorem encode_fit (r : Request) : r.fit.encode = r.encode := by
  have h : r.header.encode ++ r.payload = r.encode := rfl
  rw [← fill_header_payload, Header.encode_fill r.length_payload, h]

/-- Two lists of frames have the same bytes exactly if they carry the same requests. -/
theorem flatMap_encode_eq_iff {rs qs : List Request} :
    rs.flatMap encode = qs.flatMap encode ↔ rs.map fit = qs.map fit := by
  constructor
  · intro h
    have hrs := decodeAll_encode_append rs []
    have hqs := decodeAll_encode_append qs []
    rw [h, hqs] at hrs
    simpa using (congrArg Prod.fst hrs).symm
  · intro h
    have hfit (ps : List Request) : (ps.map fit).flatMap encode = ps.flatMap encode := by
      simp only [List.flatMap_map, encode_fit]
    rw [← hfit rs, h, hfit]

/-- A stream of frames can be read in one way only. As many steps of reading as there are requests
give each of them, with its value cut to its width, and end where the frames end. The length of a
frame is that of its header and of the payload that the header announces. A request comes back
unchanged exactly if it is a read or its value fits its width. Streams with the same bytes are streams
of the same requests, up to what is cut off. -/
theorem sequence_unambiguous (rs : List Request) (tail : List UInt8) :
    decodeMany rs.length (rs.flatMap encode ++ tail) = .ok (rs.map fit, tail) ∧
      (∀ r : Request,
        r.encode.length = r.frameLength ∧
        Header.decode (r.encode.take headerLength) = .ok r.header ∧
        r.frameLength = headerLength + r.header.payloadLength ∧
        decode r.encode = .ok r.fit ∧
        (decode r.encode = .ok r ↔ r.Canonical)) ∧
      ∀ qs : List Request,
        rs.flatMap encode = qs.flatMap encode ↔ rs.map fit = qs.map fit := by
  refine ⟨decodeMany_encode_append rs tail, fun r => ?_, fun qs => flatMap_encode_eq_iff⟩
  exact ⟨r.length_encode, r.decode_header_encode, r.frameLength_eq, r.decode_encode,
    r.decode_encode_eq_self_iff⟩

end Request

end RemoteRegisters
