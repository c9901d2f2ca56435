import RemoteRegisters.Frame.Decoding
import RemoteRegisters.Register.File

/-!
# Sessions

A session serves the requests of one connection on a register file of its own.

```text
idle --kind--> header --read------------------> responding --> idle
                  |                                  ^
                  +----write--> payload --> idle     |
                                        (a write is not answered)
```

A request is carried out, and answered if it is a read, before the next one is taken up. The session
itself touches no stream. In each phase it says how many bytes it needs next (`Phase.demand`) or
which bytes it has to send, and is told what came of it: `received`, `receiveFailed`, `responded` or
`responseFailed`.

## Main definitions

* `Session.Phase` is the point that the session has reached in the exchange of frames.
* `Session.apply` carries a request out and counts its frame.
* `Session.finish` ends the session and reports the end.
-/

namespace RemoteRegisters

/-- The point that a session has reached. -/
inductive Session.Phase where
  | idle
  | header (kind : AccessKind)
  | payload (addr : UInt32) (width : Width)
  /-- A read has been carried out and its response is to be sent. -/
  | responding (response : List UInt8)
  | ended (reason : EndReason)
  deriving DecidableEq, Repr

/-- The number of bytes that the session needs in order to go on. -/
def Session.Phase.demand : Session.Phase → Nat
  | idle => 1
  | header _ => headerLength - 1
  | payload _ width => width.bytes
  | responding _ => 0
  | ended _ => 0

/-- The state of one connection at the far end. -/
structure Session where
  registers : RegisterFile
  phase : Session.Phase := .idle
  served : List Request := []
  /-- The number of frames that have been carried out. -/
  frames : Nat := 0
  output : List UInt8 := []
  log : List Event := []
  deriving DecidableEq, Repr

namespace Session

def ofMap (m : RegisterMap) : Session where
  registers := .ofMap m

def endReason? (s : Session) : Option EndReason :=
  match s.phase with
  | .ended reason => some reason
  | _ => none

def finish (s : Session) (reason : EndReason) : Session :=
  { s with
    phase := .ended reason
    log := s.log ++ [.sessionEnded s.frames reason] }

def apply (s : Session) (r : Request) : Session :=
  match r with
  | .read addr width =>
      let value := width.truncate (s.registers.read addr width)
      { s with
        phase := .responding (encodeValue value width)
        served := s.served ++ [r]
        frames := s.frames + 1
        log := s.log ++ s.registers.readEvents addr ++ [.sessionRead addr width value] }
  | .write addr width value =>
      { s with
        registers := s.registers.write addr width value.toUInt64
        phase := .idle
        served := s.served ++ [r]
        frames := s.frames + 1
        output := s.output ++ s.registers.emitted addr width value.toUInt64
        log := s.log ++ [.sessionWrite addr width value]
          ++ s.registers.writeEvents addr value.toUInt64 }

def received (s : Session) (bytes : List UInt8) : Session :=
  match s.phase with
  | .idle =>
      match bytes with
      | [] => s
      | tag :: _ =>
          match AccessKind.ofTag? tag with
          | none => s.finish (.protocol (.unknownKind tag))
          | some kind => { s with phase := .header kind }
  | .header kind =>
      match Header.decode (kind.tag :: bytes) with
      | .error e => s.finish (.protocol e)
      | .ok h =>
          match h.kind with
          | .read => s.apply (.read h.addr h.width)
          | .write => { s with phase := .payload h.addr h.width }
  | .payload addr width =>
      match Header.complete ⟨.write, addr, width⟩ bytes with
      | .error e => s.finish (.protocol e)
      | .ok r => s.apply r
  | .responding _ => s
  | .ended _ => s

/-- The bytes that the session needed have not come. A stream that its peer closes between two
frames ends the session in order; within a frame it cuts the frame off. -/
def receiveFailed (s : Session) (e : TransferError) : Session :=
  match s.phase with
  | .idle =>
      match e with
      | .closed => s.finish .peerClosed
      | e => s.finish (.transport e)
  | .header _ => s.finish (.ofMidFrame headerLength 1 e)
  | .payload _ width => s.finish (.ofMidFrame (headerLength + width.bytes) headerLength e)
  | .responding _ => s
  | .ended _ => s

def responded (s : Session) : Session :=
  { s with phase := .idle }

def responseFailed (s : Session) (e : TransferError) : Session :=
  s.finish (.transport e)

/-- A write moves the session on to the next frame, a read to its response. -/
theorem phase_apply (s : Session) (r : Request) :
    (s.apply r).phase =
      match r with
      | .read addr width =>
          .responding (encodeValue (width.truncate (s.registers.read addr width)) width)
      | .write .. => .idle := by
  cases r <;> rfl

end Session

end RemoteRegisters
