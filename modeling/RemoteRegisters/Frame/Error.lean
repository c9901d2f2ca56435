import RemoteRegisters.Text.Hex

/-!
# Malformed frames

The byte stream carries no marker from which a reader could find the next frame again, so each of
these faults ends the conversation.
-/

namespace RemoteRegisters

/-- What can be wrong with the bytes of a frame. -/
inductive FrameError where
  | unknownKind (tag : UInt8)
  | invalidWidth (tag : UInt8)
  /-- There are fewer bytes than the frame needs, as far as its length is known. -/
  | truncated (expected actual : Nat)
  deriving DecidableEq, Repr

def FrameError.message : FrameError → String
  | unknownKind tag => "Unknown request kind byte " ++ Text.hexPadded 2 tag.toNat
  | invalidWidth tag =>
      "Invalid access width " ++ toString tag.toNat ++ " (must be 1, 2 or 4)"
  | truncated expected actual =>
      "Truncated frame: expected " ++ toString expected ++ " bytes, got " ++ toString actual

end RemoteRegisters
