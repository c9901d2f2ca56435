import RemoteRegisters.Access.Window
import RemoteRegisters.Keyed
import RemoteRegisters.Register.Flags

/-!
# Register maps

A register map says which registers the window of a device holds: at which offset, under which
name, what the device does with accesses to it (`Semantics`) and what it holds after a reset.

`RegisterMap.ofList?` builds a map from descriptors one after the other and refuses the first that
does not fit. Of a descriptor that is wrong in several ways the offset is reported before the access
mode, and the access mode before an offset that is taken. `RegisterMap.standard` is the map of the
device itself: a transmitter, its status, and a control register.
-/

namespace RemoteRegisters

/-- How a register may be accessed, as its descriptor declares it. -/
inductive AccessMode where
  | readOnly
  | writeOnly
  | readWrite
  deriving DecidableEq, Repr

def AccessMode.name : AccessMode → String
  | readOnly => "ReadOnly"
  | writeOnly => "WriteOnly"
  | readWrite => "ReadWrite"

/-- What the device does with an access to a register. -/
inductive Semantics where
  /-- The low byte of every write is transmitted; nothing is stored. -/
  | transmit
  /-- Reads return the reset value for ever; writes are ignored. -/
  | constant
  | storage
  deriving DecidableEq, Repr

def Semantics.mode : Semantics → AccessMode
  | transmit => .writeOnly
  | constant => .readOnly
  | storage => .readWrite

/-- One register of a map. -/
structure RegisterDescriptor where
  offset : UInt32
  name : String
  mode : AccessMode
  reset : UInt64
  semantics : Semantics
  deriving DecidableEq, Repr

namespace RegisterDescriptor

/-- A descriptor with the access mode that its semantics imply. -/
def ofSemantics (offset : UInt32) (name : String) (semantics : Semantics) (reset : UInt64) :
    RegisterDescriptor where
  offset := offset
  name := name
  mode := semantics.mode
  reset := reset
  semantics := semantics

def key (d : RegisterDescriptor) : Nat :=
  d.offset.toNat

end RegisterDescriptor

/-- Why a descriptor does not fit into a map. -/
inductive MapError where
  | outsideWindow (d : RegisterDescriptor)
  | modeMismatch (d : RegisterDescriptor)
  | sharedOffset (first second : RegisterDescriptor)
  deriving DecidableEq, Repr

/-- A refused map as the access error that its caller sees. -/
def MapError.toAccessError : MapError → AccessError
  | outsideWindow d => .unmapped d.offset.toUInt64
  | modeMismatch d =>
      .device ("register " ++ d.name ++ " declared " ++ d.mode.name
        ++ " but its semantics need " ++ d.semantics.mode.name)
  | sharedOffset first second =>
      .device ("registers " ++ first.name ++ " and " ++ second.name
        ++ " share offset " ++ Text.hex second.offset.toNat)

/-- The registers of a window, in ascending order of their offsets. -/
structure RegisterMap where
  registers : List RegisterDescriptor
  deriving DecidableEq, Repr

namespace RegisterMap

def empty : RegisterMap :=
  ⟨[]⟩

def lookup? (m : RegisterMap) (offset : UInt32) : Option RegisterDescriptor :=
  m.registers.find? (·.offset == offset)

def size (m : RegisterMap) : Nat :=
  m.registers.length

def insert? (m : RegisterMap) (d : RegisterDescriptor) : Except MapError RegisterMap :=
  if windowSize ≤ d.offset.toUInt64 then .error (.outsideWindow d)
  else if d.mode ≠ d.semantics.mode then .error (.modeMismatch d)
  else
    match m.lookup? d.offset with
    | some first => .error (.sharedOffset first d)
    | none => .ok ⟨Keyed.insert RegisterDescriptor.key d m.registers⟩

/-- Adds registers one after the other, up to the first that does not fit. -/
def insertAll? (m : RegisterMap) : List RegisterDescriptor → Except MapError RegisterMap
  | [] => .ok m
  | d :: ds =>
      match m.insert? d with
      | .error e => .error e
      | .ok m' => m'.insertAll? ds

/-- The map of the given registers, if all of them fit. -/
def ofList? (ds : List RegisterDescriptor) : Except MapError RegisterMap :=
  empty.insertAll? ds

/-- The offset of the register that transmits what is written to it. -/
def txData : UInt32 := 0x00

def status : UInt32 := 0x04

def control : UInt32 := 0x08

/-- The map of the device: a transmitter, its status, and a control register. -/
def standard : RegisterMap where
  registers := [
    .ofSemantics txData "TXDATA" .transmit 0,
    .ofSemantics status "STATUS" .constant StatusFlags.ready.raw.toUInt64,
    .ofSemantics control "CTRL" .storage ControlFlags.reset.raw.toUInt64]

theorem ofList?_standard : ofList? standard.registers = .ok standard :=
  rfl

end RegisterMap

end RemoteRegisters
