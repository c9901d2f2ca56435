import RemoteRegisters.Device

/-!
# Probes

A probe is a device for trying an address space out. It keeps a record of every access that reaches
it, answers a read with the offset combined with a pattern, and can be set to refuse everything.
-/

namespace RemoteRegisters

/-- One access as a device sees it. -/
structure SeenAccess where
  offset : UInt64
  width : Width
  operation : Operation
  deriving DecidableEq, Repr

/-- A device that records the accesses that reach it. -/
structure Probe where
  size : UInt64
  pattern : UInt64
  /-- The reason for which every access is refused, if it is. -/
  refusal : Option String
  seen : List SeenAccess := []
  deriving DecidableEq, Repr

namespace Probe

def answer (p : Probe) (offset : UInt64) (operation : Operation) : Answer :=
  match p.refusal, operation with
  | some reason, _ => .error (.device reason)
  | none, .read => .ok (some (offset ^^^ p.pattern))
  | none, .write _ => .ok none

instance : Device Probe where
  size := Probe.size
  access p offset width operation :=
    ⟨p.answer offset operation, { p with seen := p.seen ++ [⟨offset, width, operation⟩] }, []⟩

end Probe

/-- A device under a number by which it can be told from others. -/
structure Numbered (δ : Type) where
  number : Nat
  device : δ

instance {δ : Type} [Device δ] : Device (Numbered δ) where
  size d := Device.size d.device
  access d offset width operation :=
    let o := Device.access d.device offset width operation
    ⟨o.answer, ⟨d.number, o.state⟩, o.log⟩

end RemoteRegisters
