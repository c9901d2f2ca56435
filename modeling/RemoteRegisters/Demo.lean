import RemoteRegisters.Bridge
import RemoteRegisters.Bus
import RemoteRegisters.Register.Map

/-!
# The demo console

The demo drives the device as firmware does. It enables the device, and for each byte of a message
it reads the status register until the transmitter is ready and then writes the byte. Accesses that
the bridge loses have no effect that the demo could see, so it looks at the number of faults: after
each status that is not ready, and once more after the whole message.

## Main definitions

* `Demo.Stage` is the point that the demo has reached. `Stage.call?` is the access that it makes
  next, and `Stage.resume` what it makes of the answer.
* `Demo.run` makes accesses until the demo is done or a budget of accesses is used up.

## Design notes

Nothing in the demo bounds the number of times that it reads the status: a device that never becomes
ready keeps it waiting. On a stream that can deliver only so many bytes `Demo.budget` is enough,
because every status that is not ready takes four bytes out of the supply.
-/

namespace RemoteRegisters.Demo

/-- Why the demo failed. -/
inductive Trouble where
  | refused (error : AccessError)
  /-- The stream failed while the demo waited for the transmitter. -/
  | lostPolling
  /-- The stream failed while the message was being sent. -/
  | lostSending
  deriving DecidableEq, Repr

def Trouble.message : Trouble → String
  | refused error => error.message
  | lostPolling => "lost the emulator while polling STATUS"
  | lostSending => "lost the emulator while sending"

/-- The point that the demo has reached. -/
inductive Stage where
  | enabling (message : List UInt8)
  | polling (next : UInt8) (later : List UInt8)
  | sending (next : UInt8) (later : List UInt8)
  | done
  | failed (trouble : Trouble)
  deriving DecidableEq, Repr

namespace Stage

/-- The access that the demo makes next on a device at `base`, unless it is over. -/
def call? (base : UInt64) : Stage → Option Call
  | enabling _ => some (.write (base + RegisterMap.control.toUInt64) 4 1)
  | polling _ _ => some (.read (base + RegisterMap.status.toUInt64) 4)
  | sending next _ => some (.write (base + RegisterMap.txData.toUInt64) 1 next.toUInt64)
  | done => none
  | failed _ => none

/-- Goes on with a message, or finishes if none of it is left. -/
def proceed (faults : Nat) : List UInt8 → Stage
  | next :: later => polling next later
  | [] => if faults = 0 then done else failed .lostSending

/-- What the demo makes of an answer, when the bridge has counted a number of faults. -/
def resume (stage : Stage) (answer : Answer) (faults : Nat) : Stage :=
  match answer, stage with
  | .error e, _ => failed (.refused e)
  | .ok _, enabling message => proceed faults message
  | .ok reply, polling next later =>
      if (StatusFlags.mk (reply.getD 0).toUInt32).txReady then sending next later
      else if faults = 0 then polling next later
      else failed .lostPolling
  | .ok _, sending _ later => proceed faults later
  | .ok _, done => done
  | .ok _, failed trouble => failed trouble

end Stage

variable {σ : Type}

def faultsAt (bus : Bus (Bridge σ)) (base : UInt64) : Nat :=
  ((bus.deviceAt? base).map Bridge.faults).getD 0

/-- Makes accesses until the demo is over, but at most a number of them. -/
def run [ByteStream σ] (base : UInt64) :
    (accesses : Nat) → Stage → Bus (Bridge σ) → Stage × Bus (Bridge σ)
  | 0, stage, bus => (stage, bus)
  | accesses + 1, stage, bus =>
      match stage.call? base with
      | none => (stage, bus)
      | some c =>
          let o := bus.perform c
          run base accesses (stage.resume o.answer (faultsAt o.state base)) o.state

/-- The accesses that the demo makes at most on a stream with a given supply. -/
def budget (message : List UInt8) (supply : Nat) : Nat :=
  2 + 2 * message.length + supply

/-- The demo with a bridge that is mapped at `base` of an address space of its own. -/
def start [ByteStream σ] (base : UInt64) (bridge : Bridge σ) (message : List UInt8)
    (accesses : Nat) : Stage × Bridge σ :=
  let attached := Bus.empty.attach base bridge
  match attached.answer with
  | .error e => (.failed (.refused e), bridge)
  | .ok () =>
      let course := run base accesses (.enabling message) attached.state
      (course.1, (course.2.deviceAt? base).getD bridge)

end RemoteRegisters.Demo
