/-!
# Faults of a byte stream

`IoError` is a fault of one call on a stream. `TransferError` is what a transfer of a whole byte
string comes to when it cannot be completed.
-/

namespace RemoteRegisters

/-- The kinds of fault that one call on a stream can have. -/
inductive IoError.Kind where
  | interrupted
  | wouldBlock
  | timedOut
  | brokenPipe
  | connectionReset
  | connectionAborted
  | connectionRefused
  | networkUnreachable
  | addressInUse
  | invalidInput
  | unexpectedEof
  | writeZero
  | other
  deriving DecidableEq, Repr

/-- The text of a kind, for a fault that brings no text of its own. -/
def IoError.Kind.text : IoError.Kind → String
  | interrupted => "operation interrupted"
  | wouldBlock => "operation would block"
  | timedOut => "timed out"
  | brokenPipe => "broken pipe"
  | connectionReset => "connection reset"
  | connectionAborted => "connection aborted"
  | connectionRefused => "connection refused"
  | networkUnreachable => "network unreachable"
  | addressInUse => "address in use"
  | invalidInput => "invalid input parameter"
  | unexpectedEof => "unexpected end of file"
  | writeZero => "write zero"
  | other => "other error"

/-- A fault of one call on a stream: its kind and, if it brings one, a text of its own. -/
structure IoError where
  kind : IoError.Kind
  detail : Option String
  deriving DecidableEq, Repr

/-- The text of a fault: its own, even an empty one, or that of its kind. -/
def IoError.message (e : IoError) : String :=
  e.detail.getD e.kind.text

/-- Why a transfer of a byte string was not completed. -/
inductive TransferError where
  | shortWrite (expected sent : Nat)
  /-- The stream ended after some of the bytes, but not all of them. -/
  | shortRead (expected received : Nat)
  | closed
  | abandoned
  | io (error : IoError)
  deriving DecidableEq, Repr

namespace TransferError

/-- The end of a stream, met when `received` of `expected` bytes had come. An end before the first
byte is the peer closing the stream. -/
def endOfStream (expected received : Nat) : TransferError :=
  if received = 0 then closed else shortRead expected received

def message : TransferError → String
  | shortWrite expected sent =>
      "Short write: " ++ toString sent ++ " of " ++ toString expected ++ " bytes accepted"
  | shortRead expected received =>
      "Short read: " ++ toString received ++ " of " ++ toString expected
        ++ " bytes received before end of stream"
  | closed => "Stream closed by peer"
  | abandoned => "Stream abandoned after an earlier fault"
  | io error => "Transport I/O failure: " ++ error.message

end TransferError

end RemoteRegisters
