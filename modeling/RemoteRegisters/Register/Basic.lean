import RemoteRegisters.Access.Width

/-!
# Registers

A register holds 64 bits, and an access narrower than that touches its low bytes only. There are
three kinds:

* a *storage* register keeps what is written to it, in those bits that its mask lets through;
* a *constant* register always reads the same and ignores writes;
* a *sink* keeps nothing, reads as zero and hands each written value on.
-/

namespace RemoteRegisters

/-- One register with its contents. -/
inductive Register where
  | storage (value writable : UInt64)
  | constant (value : UInt64)
  | sink
  deriving DecidableEq, Repr

namespace Register

def read (r : Register) (width : Width) : UInt64 :=
  match r with
  | storage value _ => value &&& width.mask
  | constant value => value &&& width.mask
  | sink => 0

/-- The register after a write of a given width. Bits above the width, and bits that the mask
protects, keep their value. -/
def write (r : Register) (width : Width) (value : UInt64) : Register :=
  match r with
  | storage old writable =>
      let lanes := writable &&& width.mask
      storage ((old &&& ~~~lanes) ||| (value &&& lanes)) writable
  | constant kept => constant kept
  | sink => sink

/-- The value that a write hands on to whatever is behind the register. -/
def handedOn (r : Register) (width : Width) (value : UInt64) : Option UInt64 :=
  match r with
  | sink => some (value &&& width.mask)
  | storage _ _ => none
  | constant _ => none

end Register

end RemoteRegisters
