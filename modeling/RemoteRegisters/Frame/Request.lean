import RemoteRegisters.Access.Window

/-!
# Requests

A request is one register access as it travels to the far end. A write carries at most as many
bytes of its value as its width has: `Request.ofWrite` cuts a longer value off, and
`Request.Canonical` says that nothing is left to cut.
-/

namespace RemoteRegisters

/-- One register access, addressed within the window of the far end. -/
inductive Request where
  | read (addr : UInt32) (width : Width)
  | write (addr : UInt32) (width : Width) (value : UInt32)
  deriving DecidableEq, Repr

/-- The number of bytes before the payload of a frame: kind, four address bytes and width. -/
def headerLength : Nat := 6

namespace Request

/-- A write of the part of `value` that the width carries. -/
def ofWrite (addr : UInt32) (width : Width) (value : UInt64) : Request :=
  write addr width (width.truncate value)

def kind : Request → AccessKind
  | read .. => .read
  | write .. => .write

def addr : Request → UInt32
  | read addr _ => addr
  | write addr _ _ => addr

def width : Request → Width
  | read _ width => width
  | write _ width _ => width

/-- The number of bytes that the request occupies on the stream. -/
def frameLength : Request → Nat
  | read .. => headerLength
  | write _ width _ => headerLength + width.bytes

def Canonical : Request → Prop
  | read .. => True
  | write _ width value => value.toNat < width.range

instance : DecidablePred Canonical := fun
  | read .. => isTrue trivial
  | write _ width value => inferInstanceAs (Decidable (value.toNat < width.range))

theorem headerLength_le_frameLength (r : Request) : headerLength ≤ r.frameLength := by
  cases r <;> simp [frameLength]

theorem frameLength_pos (r : Request) : 0 < r.frameLength :=
  Nat.lt_of_lt_of_le (by decide) r.headerLength_le_frameLength

end Request

end RemoteRegisters
