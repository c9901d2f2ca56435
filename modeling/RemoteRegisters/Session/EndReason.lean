import RemoteRegisters.Frame.Error
import RemoteRegisters.Stream.Error

/-!
# How a session ends

A session ends when its peer closes the stream between two frames, or by a fault: the stream ended
in the middle of a frame, a frame was malformed, or a transfer failed.
-/

namespace RemoteRegisters

/-- Why a session ended. -/
inductive EndReason where
  | peerClosed
  /-- The stream ended when only `actual` bytes of a frame of at least `expected` bytes had come. -/
  | truncated (expected actual : Nat)
  | protocol (error : FrameError)
  | transport (error : TransferError)
  deriving DecidableEq, Repr

namespace EndReason

def isClean : EndReason → Bool
  | peerClosed => true
  | _ => false

def message : EndReason → String
  | peerClosed => "peer closed the connection"
  | truncated expected actual => (FrameError.truncated expected actual).message
  | protocol error => error.message
  | transport error => error.message

/-- The reason for which a failed transfer ends a session in the middle of a frame of `expected`
bytes, of which `already` had come before the transfer. -/
def ofMidFrame (expected already : Nat) : TransferError → EndReason
  | .closed => truncated expected already
  | .shortRead _ received => truncated expected (already + received)
  | error => transport error

end EndReason

end RemoteRegisters
