import RemoteRegisters.Device
import RemoteRegisters.Frame.Decoding
import RemoteRegisters.Stream.Transfer

/-!
# The bridge to a remote device

A bridge forwards the accesses to its window over a byte stream to a remote register file. Each
access is one exchange: a request, and for a read the response to it.

A fault of the stream never reaches the caller as an error. It is reported and counted, and a read
that it hits returns zero. Only a malformed access is refused, before anything is sent.

After the first fault nobody knows where in a frame the stream stands. The bridge then gives the
stream up for good: it runs its shutdown hook, once, and every later access counts as a fault without
touching the stream.

## Main definitions

* `Bridge.perform` is one access, and `Bridge.performAll` a list of them.
* `Bridge.exchange` is the exchange of a read.
* `Bridge.lose` records a fault.
-/

namespace RemoteRegisters

/-- The near end of a stream to a remote register file. -/
structure Bridge (σ : Type) where
  stream : σ
  faults : Nat := 0
  broken : Bool := false
  hooked : Bool := false
  hookCalls : Nat := 0

/-- What the caller of a lost access gets: zero for a read. -/
def Operation.fallback : Operation → Option UInt64
  | read => some 0
  | write _ => none

namespace Bridge

variable {σ : Type}

/-- Records a fault. The first one gives the stream up and runs the shutdown hook. -/
def recordFault (b : Bridge σ) : Bridge σ :=
  { b with
    faults := b.faults + 1
    broken := true
    hookCalls := if b.hooked && !b.broken then b.hookCalls + 1 else b.hookCalls }

def lose (b : Bridge σ) (c : Call) (e : TransferError) : Outcome (Bridge σ) Answer where
  answer := .ok c.operation.fallback
  state := b.recordFault
  log := [.bridgeFault c.operation.kind c.address e]

/-- Sends a read request and receives the response to it. -/
def exchange [ByteStream σ] (stream : σ) (a : Placement) : Except TransferError UInt32 × σ :=
  match send stream (Request.read a.offset a.width).encode with
  | (.error e, stream') => (.error e, stream')
  | (.ok (), stream') =>
      match receive stream' a.width.bytes with
      | (.error e, stream'') => (.error e, stream'')
      | (.ok bytes, stream'') => (.ok (valueOfBytes bytes), stream'')

def forward [ByteStream σ] (b : Bridge σ) (c : Call) (a : Placement) :
    Outcome (Bridge σ) Answer :=
  if b.broken then b.lose c .abandoned
  else
    match c.operation with
    | .read =>
        match exchange b.stream a with
        | (.error e, stream) => { b with stream := stream }.lose c e
        | (.ok value, stream) =>
            { answer := .ok (some value.toUInt64)
              state := { b with stream := stream }
              log := [.bridgeRead c.address c.size value] }
    | .write value =>
        match send b.stream (Request.ofWrite a.offset a.width value).encode with
        | (.error e, stream) => { b with stream := stream }.lose c e
        | (.ok (), stream) =>
            { answer := .ok none
              state := { b with stream := stream }
              log := [.bridgeWrite c.address c.size value] }

/-- What a refused access reports: that it lies outside the window, if that is the reason. -/
def refusalEvents : AccessError → List Event
  | .unmapped offset => [.outsideWindow offset]
  | _ => []

def perform [ByteStream σ] (b : Bridge σ) (c : Call) : Outcome (Bridge σ) Answer :=
  match Window.place c.address c.size with
  | .error e => ⟨.error e, b, refusalEvents e⟩
  | .ok a => b.forward c a

/-- Accesses one after the other, each with what came of it. -/
def performAll [ByteStream σ] (b : Bridge σ) : List Call → List (Outcome (Bridge σ) Answer)
  | [] => []
  | c :: cs =>
      let o := b.perform c
      o :: o.state.performAll cs

def after [ByteStream σ] (b : Bridge σ) (cs : List Call) : Bridge σ :=
  cs.foldl (fun b c => (b.perform c).state) b

instance [ByteStream σ] : Device (Bridge σ) where
  size _ := windowSize
  access b offset width operation := b.perform ⟨offset, UInt64.ofNat width.bytes, operation⟩

theorem perform_of_refused [ByteStream σ] {b : Bridge σ} {c : Call} {e : AccessError}
    (h : Window.place c.address c.size = .error e) :
    b.perform c = ⟨.error e, b, refusalEvents e⟩ := by
  simp [perform, h]

end Bridge

end RemoteRegisters
