import RemoteRegisters.Access.Error

/-!
# Accesses as their callers make them

A caller names an address, or an offset into a window, and a size in bytes, both as 64-bit numbers
that nothing has checked yet. `Call` is one such access and `Answer` what comes back from it.
-/

namespace RemoteRegisters

/-- Whether an access reads or writes. -/
inductive AccessKind where
  | read
  | write
  deriving DecidableEq, Repr

/-- What an access does: read, or write a value. -/
inductive Operation where
  | read
  | write (value : UInt64)
  deriving DecidableEq, Repr

def Operation.kind : Operation → AccessKind
  | read => .read
  | write _ => .write

/-- One access before any check of its address and size. -/
structure Call where
  address : UInt64
  size : UInt64
  operation : Operation
  deriving DecidableEq, Repr

namespace Call

def read (address size : UInt64) : Call :=
  ⟨address, size, .read⟩

def write (address size value : UInt64) : Call :=
  ⟨address, size, .write value⟩

end Call

/-- What a caller gets back: a refusal, the value of a read, or nothing for a write. -/
abbrev Answer := Except AccessError (Option UInt64)

end RemoteRegisters
