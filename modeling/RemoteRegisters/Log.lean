import RemoteRegisters.Access.Call
import RemoteRegisters.Access.Width
import RemoteRegisters.Session.EndReason

/-!
# The log

Everything that the library reports about its own running is an `Event`. What an event says, how
severe it is and how it reads are three separate things: the constructor with its fields,
`Event.level` and `Event.text`. A log is a list of events, oldest first.
-/

namespace RemoteRegisters

/-- How severe an event is. -/
inductive Level where
  | error
  | warn
  | info
  | debug
  deriving DecidableEq, Repr

namespace Level

/-- The place of a level in the order of severity; the most severe comes first. -/
def rank : Level → Nat
  | error => 0
  | warn => 1
  | info => 2
  | debug => 3

def name : Level → String
  | error => "ERROR"
  | warn => "WARN"
  | info => "INFO"
  | debug => "DEBUG"

end Level

/-- Something that the library reports. -/
inductive Event where
  | regionMapped (start stop : UInt64)
  | busRead (address size : UInt64)
  | busWrite (address size value : UInt64)
  /-- An access to the bridge does not lie in the register window. -/
  | outsideWindow (offset : UInt64)
  | bridgeRead (offset size : UInt64) (value : UInt32)
  | bridgeWrite (offset size value : UInt64)
  /-- An access through the bridge was lost to a fault of its stream. -/
  | bridgeFault (kind : AccessKind) (offset : UInt64) (error : TransferError)
  | sessionRead (addr : UInt32) (width : Width) (value : UInt32)
  | sessionWrite (addr : UInt32) (width : Width) (value : UInt32)
  | undefinedRead (addr : UInt32)
  | undefinedWrite (addr : UInt32) (value : UInt64)
  | sessionEnded (frames : Nat) (reason : EndReason)
  deriving DecidableEq, Repr

namespace Event

/-- How severe an event is. A session that its peer closed is no fault. -/
def level : Event → Level
  | regionMapped .. => .info
  | busRead .. => .debug
  | busWrite .. => .debug
  | outsideWindow .. => .warn
  | bridgeRead .. => .debug
  | bridgeWrite .. => .debug
  | bridgeFault .. => .error
  | sessionRead .. => .debug
  | sessionWrite .. => .debug
  | undefinedRead .. => .debug
  | undefinedWrite .. => .debug
  | sessionEnded _ reason => if reason.isClean then .info else .error

private def kindWord : AccessKind → String
  | .read => "read"
  | .write => "write"

def text : Event → String
  | regionMapped start stop =>
      "Mapped MMIO region [" ++ Text.hex start.toNat ++ ", " ++ Text.hex stop.toNat ++ ")"
  | busRead address size =>
      "Read from " ++ Text.hex address.toNat ++ " of size " ++ toString size.toNat
  | busWrite address size value =>
      "Write " ++ Text.hex value.toNat ++ " to " ++ Text.hex address.toNat
        ++ " of size " ++ toString size.toNat
  | outsideWindow offset =>
      "mmio-sockdev: access at " ++ Text.hex offset.toNat ++ " is outside the register window"
  | bridgeRead offset size value =>
      "mmio-sockdev: read " ++ Text.hex offset.toNat ++ "/" ++ toString size.toNat
        ++ " -> " ++ Text.hex value.toNat
  | bridgeWrite offset size value =>
      "mmio-sockdev: write " ++ Text.hex offset.toNat ++ "/" ++ toString size.toNat
        ++ " <- " ++ Text.hex value.toNat
  | bridgeFault kind offset error =>
      "mmio-sockdev: " ++ kindWord kind ++ " at " ++ Text.hex offset.toNat
        ++ " failed: " ++ error.message
  | sessionRead addr width value =>
      "R " ++ Text.hexPadded 4 addr.toNat ++ "/" ++ toString width.bytes
        ++ " -> " ++ Text.hex value.toNat
  | sessionWrite addr width value =>
      "W " ++ Text.hexPadded 4 addr.toNat ++ "/" ++ toString width.bytes
        ++ " <- " ++ Text.hex value.toNat
  | undefinedRead addr =>
      "read from undefined register " ++ Text.hex addr.toNat ++ ", returning 0"
  | undefinedWrite addr value =>
      "write of " ++ Text.hex value.toNat ++ " to undefined register "
        ++ Text.hex addr.toNat ++ " ignored"
  | sessionEnded frames reason =>
      (if reason.isClean then "session ended after " else "session aborted after ")
        ++ toString frames ++ " frames: " ++ reason.message

def line (e : Event) : String :=
  e.level.name ++ " " ++ e.text

end Event

/-- The lines of those events that are at least as severe as `limit`. -/
def logLines (limit : Level) (log : List Event) : List String :=
  (log.filter fun e => e.level.rank ≤ limit.rank).map Event.line

end RemoteRegisters
