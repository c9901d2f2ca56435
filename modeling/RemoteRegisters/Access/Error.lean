import RemoteRegisters.Text.Hex

/-!
# Refused accesses

What can be wrong with an access before any device answers it, and with the mapping of a device
into the address space. `AccessError.message` is the one place that words them.
-/

namespace RemoteRegisters

/-- A half-open range of addresses, from `start` up to and without `stop`. -/
structure Span where
  start : UInt64
  stop : UInt64
  deriving DecidableEq, Repr

def Span.text (s : Span) : String :=
  "[" ++ Text.hexPadded 16 s.start.toNat ++ ", " ++ Text.hexPadded 16 s.stop.toNat ++ ")"

/-- Why an access or a mapping is refused. -/
inductive AccessError where
  | unmapped (address : UInt64)
  | misaligned (address size : UInt64)
  | invalidSize (size : UInt64)
  | device (reason : String)
  /-- A new region would share addresses with a mapped one. -/
  | overlap (existing new : Span)
  deriving DecidableEq, Repr

def AccessError.message : AccessError → String
  | unmapped address =>
      "Unmapped memory access at address " ++ Text.hexPadded 16 address.toNat
  | misaligned address size =>
      "Invalid alignment: address " ++ Text.hexPadded 16 address.toNat
        ++ " not aligned for " ++ toString size.toNat ++ "-byte access"
  | invalidSize size =>
      "Invalid access size: " ++ toString size.toNat ++ " bytes (must be 1, 2 or 4)"
  | device reason => "Device error: " ++ reason
  | overlap existing new =>
      "Overlapping MMIO region: new region " ++ new.text
        ++ " overlaps with existing region " ++ existing.text

end RemoteRegisters
