import RemoteRegisters.Access.Address
import RemoteRegisters.Device
import RemoteRegisters.Keyed

/-!
# The address space

A bus maps devices into a 64-bit address space and routes each access to the device that is mapped
there. Its regions are kept in ascending order of their bases, so one lookup finds the only region
that can hold an address, and two lookups the only regions that a new one can overlap.

A region may be empty. An empty region holds no address and a new region may start where it starts;
it is then replaced.

## Main definitions

* `Bus.attach` maps a device. It refuses a region that runs past the end of the address space or
  overlaps a mapped one.
* `Bus.locate` finds the region of an access. It checks the size first, then the alignment, then the
  address.
* `Bus.perform` is one access.
-/

namespace RemoteRegisters

/-- A device at its place in the address space. -/
structure Region (δ : Type) where
  base : UInt64
  size : UInt64
  device : δ

namespace Region

variable {δ : Type}

def key (r : Region δ) : Nat :=
  r.base.toNat

/-- The first address behind the region. A region that would run past the end of the address space is
never mapped, so the sum does not wrap around. -/
def stop (r : Region δ) : UInt64 :=
  r.base + r.size

def span (r : Region δ) : Span :=
  ⟨r.base, r.stop⟩

end Region

/-- An address space with the devices mapped into it. -/
structure Bus (δ : Type) where
  regions : List (Region δ)

namespace Bus

variable {δ : Type}

def empty : Bus δ :=
  ⟨[]⟩

/-- The region with the greatest base that is at most `address`. -/
def regionUpTo? (bus : Bus δ) (address : UInt64) : Option (Region δ) :=
  (bus.regions.filter fun r => r.base ≤ address).getLast?

def regionBelow? (bus : Bus δ) (address : UInt64) : Option (Region δ) :=
  (bus.regions.filter fun r => r.base < address).getLast?

/-- The region with the least base that is at least `address`. -/
def regionFrom? (bus : Bus δ) (address : UInt64) : Option (Region δ) :=
  bus.regions.find? fun r => address ≤ r.base

/-- The region that an address lies in. -/
def regionAt? (bus : Bus δ) (address : UInt64) : Option (Region δ) :=
  (bus.regionUpTo? address).filter fun r => r.base ≤ address ∧ address < r.stop

/-- A region that the new region from `base` up to `stop` would overlap: the next one at or above
`base` if it starts before `stop`, else the next one below `base` if it ends after `base`. -/
def overlap? (bus : Bus δ) (base stop : UInt64) : Option (Region δ) :=
  match (bus.regionFrom? base).filter fun r => r.base < stop with
  | some r => some r
  | none => (bus.regionBelow? base).filter fun r => base < r.stop

def attach [Device δ] (bus : Bus δ) (base : UInt64) (device : δ) :
    Outcome (Bus δ) (Except AccessError Unit) :=
  let size := Device.size device
  match Address.checkedAdd? base size with
  | none => ⟨.error (.unmapped base), bus, []⟩
  | some stop =>
      match bus.overlap? base stop with
      | some existing => ⟨.error (.overlap existing.span ⟨base, stop⟩), bus, []⟩
      | none =>
          { answer := .ok ()
            state := ⟨Keyed.insert Region.key ⟨base, size, device⟩ bus.regions⟩
            log := [.regionMapped base stop] }

/-- The region that an access of `size` bytes at `address` goes to, and its width. The sizes that have a
width are powers of two, so an address is aligned if the mask below the size leaves nothing of it. The
end of the access within the region is computed in 64 bits. -/
def locate (bus : Bus δ) (address size : UInt64) : Except AccessError (Region δ × Width) :=
  match Width.ofSize? size with
  | none => .error (.invalidSize size)
  | some width =>
      if address &&& (size - 1) ≠ 0 then .error (.misaligned address size)
      else
        match bus.regionAt? address with
        | none => .error (.unmapped address)
        | some r =>
            if r.size < (address - r.base) + size then .error (.unmapped address)
            else .ok (r, width)

/-- The bus with another state of the device that is mapped at `base`. -/
def setDevice (bus : Bus δ) (base : UInt64) (device : δ) : Bus δ :=
  ⟨bus.regions.map fun r => if r.base = base then { r with device := device } else r⟩

def callEvent (c : Call) : Event :=
  match c.operation with
  | .read => .busRead c.address c.size
  | .write value => .busWrite c.address c.size value

def perform [Device δ] (bus : Bus δ) (c : Call) : Outcome (Bus δ) Answer :=
  match bus.locate c.address c.size with
  | .error e => ⟨.error e, bus, [callEvent c]⟩
  | .ok (r, width) =>
      let o := Device.access r.device (c.address - r.base) width c.operation
      ⟨o.answer, bus.setDevice r.base o.state, callEvent c :: o.log⟩

/-- Accesses one after the other, each with what came of it. -/
def performAll [Device δ] (bus : Bus δ) : List Call → List (Outcome (Bus δ) Answer)
  | [] => []
  | c :: cs =>
      let o := bus.perform c
      o :: o.state.performAll cs

def after [Device δ] (bus : Bus δ) (cs : List Call) : Bus δ :=
  cs.foldl (fun bus c => (bus.perform c).state) bus

def deviceAt? (bus : Bus δ) (base : UInt64) : Option δ :=
  (bus.regions.find? (·.base == base)).map Region.device

end Bus

end RemoteRegisters
