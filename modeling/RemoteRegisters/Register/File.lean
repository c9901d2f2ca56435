import RemoteRegisters.Log
import RemoteRegisters.Register.Basic
import RemoteRegisters.Register.Map

/-!
# Register files

A register file is the live state of the registers of a map: it is built afresh from the map for
every connection, so each connection starts from the reset values.

A register answers at exactly its own offset. Elsewhere, also within the bytes that a wide access to
a neighbouring register covers, reads give zero and writes are ignored; both are reported.
-/

namespace RemoteRegisters

/-- The register that a kind of semantics asks for, with its reset value. -/
def Semantics.register (semantics : Semantics) (reset : UInt64) : Register :=
  match semantics with
  | transmit => .sink
  | constant => .constant reset
  | storage => .storage reset 0xFFFF_FFFF_FFFF_FFFF

/-- A register at its offset. -/
structure Slot where
  offset : UInt32
  register : Register
  deriving DecidableEq, Repr

/-- The registers of one connection. -/
structure RegisterFile where
  slots : List Slot
  deriving DecidableEq, Repr

namespace RegisterFile

def ofMap (m : RegisterMap) : RegisterFile :=
  ⟨m.registers.map fun d => ⟨d.offset, d.semantics.register d.reset⟩⟩

def register? (f : RegisterFile) (addr : UInt32) : Option Register :=
  (f.slots.find? (·.offset == addr)).map Slot.register

def read (f : RegisterFile) (addr : UInt32) (width : Width) : UInt64 :=
  match f.register? addr with
  | some r => r.read width
  | none => 0

def write (f : RegisterFile) (addr : UInt32) (width : Width) (value : UInt64) : RegisterFile :=
  ⟨f.slots.map fun s =>
    if s.offset = addr then { s with register := s.register.write width value } else s⟩

/-- The bytes that a write transmits: the low byte of what the register hands on. -/
def emitted (f : RegisterFile) (addr : UInt32) (width : Width) (value : UInt64) : List UInt8 :=
  match (f.register? addr).bind fun r => r.handedOn width value with
  | some handed => [handed.toUInt8]
  | none => []

def readEvents (f : RegisterFile) (addr : UInt32) : List Event :=
  if (f.register? addr).isSome then [] else [.undefinedRead addr]

def writeEvents (f : RegisterFile) (addr : UInt32) (value : UInt64) : List Event :=
  if (f.register? addr).isSome then [] else [.undefinedWrite addr value]

end RegisterFile

end RemoteRegisters
