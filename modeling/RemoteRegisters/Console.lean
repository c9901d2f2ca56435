import RemoteRegisters.Register.Map

/-!
# The console of the server

The bytes that the device transmits appear on the console as characters if they are printable, and
as a hexadecimal number in brackets if they are not. The banner says where the server listens and
which registers it has.
-/

namespace RemoteRegisters.Console

/-- Printable characters of the first 128, and the line feed. -/
def isPrintable (b : UInt8) : Bool :=
  (0x20 ≤ b && b ≤ 0x7E) || b == 0x0A

/-- Text between the sequences that set and reset a terminal style, if styles are wanted. -/
def styled (colored : Bool) (style text : String) : String :=
  if colored then "\x1b[" ++ style ++ "m" ++ text ++ "\x1b[0m" else text

def render (colored : Bool) (b : UInt8) : String :=
  if isPrintable b then String.singleton (Char.ofNat b.toNat)
  else styled colored "2" ("[" ++ Text.hexPadded 2 b.toNat ++ "]")

def renderAll (colored : Bool) (bytes : List UInt8) : String :=
  String.join (bytes.map (render colored))

/-- Text filled with blanks to at least `width` characters. -/
def padRight (width : Nat) (text : String) : String :=
  text ++ String.ofList (List.replicate (width - text.length) ' ')

def modeText : AccessMode → String
  | .readOnly => "R"
  | .writeOnly => "W"
  | .readWrite => "R/W"

def registerLine (colored : Bool) (d : RegisterDescriptor) : String :=
  "  " ++ Text.hexPadded 4 d.offset.toNat
    ++ " " ++ styled colored "93" (padRight 8 d.name)
    ++ " " ++ padRight 3 (modeText d.mode)
    ++ " reset=" ++ Text.hex d.reset.toNat ++ "\n"

/-- What the server prints when it has come up at an address. -/
def banner (colored : Bool) (address : String) (m : RegisterMap) : String :=
  styled colored "1;96" ("MMIO device server listening on " ++ address) ++ "\n"
    ++ "Register map:\n"
    ++ String.join (m.registers.map (registerLine colored))
    ++ styled colored "96" "Waiting for a client..." ++ "\n"

/-- Whether styles are wanted, from the usual three variables of the environment and from whether
the output is a terminal. A variable counts as set unless it is `0`. -/
def wantsStyles (force off on : Option String) (isTerminal : Bool) : Bool :=
  if (force.map (· != "0")) == some true then true
  else if off.isSome then false
  else (on.map (· != "0")).getD true && isTerminal

end RemoteRegisters.Console
