import RemoteRegisters.Frame.Encoding
import RemoteRegisters.Frame.Error

/-!
# Requests from bytes

`Request.decode` reads the frame at the head of a byte string and leaves what follows it alone.
`Request.decodeAll` reads frame after frame and stops before the first that is not whole and
well-formed.

The order of the checks is part of the format: first the length of the header, then the kind, then
the width, and last the length of the payload.
-/

namespace RemoteRegisters

/-- Reads a register value from the head of a byte string. -/
def decodeValue (bytes : List UInt8) (width : Width) : Except FrameError UInt32 :=
  if bytes.length < width.bytes then .error (.truncated width.bytes bytes.length)
  else .ok (valueOfBytes (bytes.take width.bytes))

namespace Header

def decode : List UInt8 → Except FrameError Header
  | tag :: a₀ :: a₁ :: a₂ :: a₃ :: widthTag :: _ =>
      match AccessKind.ofTag? tag with
      | none => .error (.unknownKind tag)
      | some kind =>
          match Width.ofByte? widthTag with
          | none => .error (.invalidWidth widthTag)
          | some width => .ok ⟨kind, valueOfBytes [a₀, a₁, a₂, a₃], width⟩
  | bytes => .error (.truncated headerLength bytes.length)

/-- Completes a header with the payload that follows it. -/
def complete (h : Header) (payload : List UInt8) : Except FrameError Request :=
  match h.kind with
  | .read => .ok (.read h.addr h.width)
  | .write =>
      match decodeValue payload h.width with
      | .error e => .error e
      | .ok value => .ok (Request.ofWrite h.addr h.width value.toUInt64)

theorem length_of_decode {bytes : List UInt8} {h : Header} (hd : decode bytes = .ok h) :
    headerLength ≤ bytes.length := by
  unfold decode at hd
  split at hd
  · simp [headerLength]
  · cases hd

theorem frameLength_of_complete {h : Header} {payload : List UInt8} {r : Request}
    (hc : h.complete payload = .ok r) : r.frameLength = headerLength + h.payloadLength := by
  unfold complete at hc
  split at hc
  · rename_i hk
    cases hc
    simp [Request.frameLength, payloadLength, hk]
  · rename_i hk
    split at hc
    · cases hc
    · cases hc
      simp [Request.ofWrite, Request.frameLength, payloadLength, hk]

end Header

namespace Request

/-- Reads the request at the head of a byte string. Bytes after its frame belong to the next one. -/
def decode (bytes : List UInt8) : Except FrameError Request :=
  match Header.decode bytes with
  | .error e => .error e
  | .ok header =>
      let needed := headerLength + header.payloadLength
      if bytes.length < needed then .error (.truncated needed bytes.length)
      else header.complete ((bytes.drop headerLength).take header.payloadLength)

/-- A decoded request lies wholly within the bytes that it was read from. -/
theorem frameLength_le_of_decode {bytes : List UInt8} {r : Request} (h : decode bytes = .ok r) :
    r.frameLength ≤ bytes.length := by
  unfold decode at h
  split at h
  · cases h
  · dsimp only at h
    split at h
    · cases h
    · rw [Header.frameLength_of_complete h]
      omega

/-- The requests at the head of a byte string, in order, and the bytes from the first that cannot be
read on. -/
def decodeAll (bytes : List UInt8) : List Request × List UInt8 :=
  match _ : decode bytes with
  | .error _ => ([], bytes)
  | .ok r =>
      let later := decodeAll (bytes.drop r.frameLength)
      (r :: later.1, later.2)
termination_by bytes.length
decreasing_by
  have inside := frameLength_le_of_decode ‹decode bytes = .ok r›
  have positive := r.frameLength_pos
  simp only [List.length_drop]
  omega

end Request

end RemoteRegisters
