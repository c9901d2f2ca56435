/-!
# Hexadecimal text

Addresses, offsets and register values appear in messages in hexadecimal: after a `0x`, in lower
case, either with as few digits as the number needs (`hex`) or filled with zeros to a fixed number
of digits (`hexPadded`).
-/

namespace RemoteRegisters.Text

/-- The hexadecimal digits of a number, in lower case and without leading zeros. Zero has one
digit. -/
def hexDigits (n : Nat) : List Char :=
  Nat.toDigits 16 n

def hex (n : Nat) : String :=
  "0x" ++ String.ofList (hexDigits n)

/-- `0x` and at least `digits` digits, with zeros in front where the number needs fewer. -/
def hexPadded (digits n : Nat) : String :=
  let needed := hexDigits n
  "0x" ++ String.ofList (List.replicate (digits - needed.length) '0' ++ needed)

/-- A padded text with no demand on the number of digits is the plain one. -/
theorem hexPadded_zero (n : Nat) : hexPadded 0 n = hex n := by
  simp [hexPadded, hex]

end RemoteRegisters.Text
