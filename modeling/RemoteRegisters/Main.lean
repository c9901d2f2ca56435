import RemoteRegisters.CommandLine.Demo
import RemoteRegisters.CommandLine.Server
import RemoteRegisters.Host
import RemoteRegisters.Remote
import RemoteRegisters.Stream.Script
import RemoteRegisters.Stream.System
import Std.Async.DNS
import Std.Async.TCP
import Std.Async.Timer

/-!
# The programs

The outer layer of the two programs: it reads arguments, moves bytes between sockets and the states
of the library, and prints. The first argument names the program, and the others are its own.

The server feeds what comes from a client into a `Remote` and sends back what appears in its outbox.
The demo makes each access twice. The first time the stream of its bridge delivers nothing; what the
bridge sends then is the request, which goes out on the socket. The second time the stream follows
what the socket did.
-/

namespace RemoteRegisters.Programs

open Std.Async Std.Net

/-! ### Faults of the system -/

def systemCode : IO.Error → UInt32
  | .alreadyExists _ code _ => code
  | .otherError code _ => code
  | .resourceBusy code _ => code
  | .resourceVanished code _ => code
  | .unsupportedOperation code _ => code
  | .hardwareFault code _ => code
  | .unsatisfiedConstraints code _ => code
  | .illegalOperation code _ => code
  | .protocolError code _ => code
  | .timeExpired code _ => code
  | .interrupted _ code _ => code
  | .noFileOrDirectory _ code _ => code
  | .invalidArgument _ code _ => code
  | .permissionDenied _ code _ => code
  | .resourceExhausted _ code _ => code
  | .inappropriateType _ code _ => code
  | .noSuchThing _ code _ => code
  | .unexpectedEof => 0
  | .userError _ => 0

def lookupFaults : List (Nat × IoError) := [
  (3001, .unansweredLookup),
  (3008, .unknownHost)]

/-- A fault of the system as a fault of a stream. The numbers come with their sign changed. -/
def faultOf (e : IO.Error) : IoError :=
  let code := systemCode e
  let number := (if code < 0x8000_0000 then code else 0 - code).toNat
  ((IoError.ofSystem? number).or (lookupFaults.lookup number)).getD ⟨.other, some (toString e)⟩

def attempt {α : Type} (action : Async α) : IO (Except IoError α) := do
  try
    return .ok (← action.block)
  catch e =>
    return .error (faultOf e)

/-! ### Sockets -/

def addressesOf (host : String) (tcpPort : Nat) : IO (Except IoError (List SocketAddress)) := do
  if Host.form host == .malformed then return .error .unknownHost
  let found ← attempt (DNS.getAddrInfo host "")
  return found.map fun addresses => addresses.toList.map fun
    | .v4 addr => .v4 ⟨addr, UInt16.ofNat tcpPort⟩
    | .v6 addr => .v6 ⟨addr, UInt16.ofNat tcpPort⟩

def listen (options : ServerOptions) : IO (Option (TCP.Socket.Server × SocketAddress)) := do
  match ← addressesOf options.bind options.tcpPort with
  | .ok (address :: _) =>
      try
        let server ← TCP.Socket.Server.mk
        server.bind address
        server.listen 128
        return some (server, ← server.getSockName)
      catch _ => return none
  | _ => return none

/-- A socket that is connected to the first address that answers. -/
def connectAny (last : IoError) : List SocketAddress → IO (Except IoError TCP.Socket.Client)
  | [] => return .error last
  | address :: later => do
      let client ← TCP.Socket.Client.mk
      match ← attempt (client.connect address) with
      | .error e => connectAny e later
      | .ok () =>
          client.noDelay
          return .ok client

def connect (options : DemoOptions) : IO (Except IoError TCP.Socket.Client) := do
  match Endpoint.parse options.connect with
  | .error e => return .error e
  | .ok endpoint =>
      match ← addressesOf endpoint.host endpoint.tcpPort with
      | .error e => return .error e
      | .ok addresses =>
          match ← connectAny ⟨.invalidInput, some "could not resolve to any addresses"⟩ addresses with
          | .error e => return .error e
          | .ok client =>
              if options.readTimeout == some 0 then
                return .error .zeroTimeout
              else return .ok client

def sendBytes (client : TCP.Socket.Client) (bytes : List UInt8) : IO (Except IoError Unit) :=
  attempt (client.send (ByteArray.mk bytes.toArray))

/-- Receives some bytes, or none at the end of the stream. -/
def receiveSome (client : TCP.Socket.Client) (limit : Nat) (timeout : Option Nat) :
    IO (Except IoError (List UInt8)) := do
  let bytesOf (chunk : Option ByteArray) : Except IoError (List UInt8) :=
    .ok ((chunk.map ByteArray.toList).getD [])
  match timeout with
  | none => return (← attempt (client.recv? limit.toUInt64)).bind bytesOf
  | some milliseconds =>
      let race : Async (Except IoError (List UInt8)) := do
        let clock ← Selector.sleep (Std.Time.Millisecond.Offset.ofNat milliseconds)
        Selectable.one #[
          .case (client.recvSelector limit.toUInt64) fun chunk => return bytesOf chunk,
          .case clock fun _ => return .error .waitedInVain]
      return (← attempt race).bind id

/-! ### The server -/

def display (colored : Bool) (bytes : List UInt8) : IO Unit := do
  unless bytes.isEmpty do
    let out ← IO.getStdout
    out.putStr (Console.renderAll colored bytes)
    out.flush

partial def converse (colored : Bool) (client : TCP.Socket.Client) (remote : Remote) :
    IO Session := do
  if !remote.outbox.isEmpty then
    match ← sendBytes client remote.outbox with
    | .error e => return remote.session.responseFailed (.io e)
    | .ok () => converse colored client { remote with outbox := [] }
  else if remote.session.isOver then
    return remote.session
  else
    match ← receiveSome client 4096 none with
    | .error e => return remote.session.receiveFailed (.io e)
    | .ok [] => return remote.hangUp
    | .ok bytes =>
        let next := remote.deliver bytes
        display colored (next.session.output.drop remote.session.output.length)
        converse colored client next

/-- Serves clients one after the other, or only the first. -/
partial def serveClients (colored once : Bool) (server : TCP.Socket.Server) : IO Unit := do
  let client ← server.accept.block
  client.noDelay
  discard <| converse colored client (.ofMap .standard)
  discard <| attempt client.shutdown
  if once then IO.print ServerOptions.farewell
  else serveClients colored once server

def finish (e : ProgramEnd) : IO UInt32 := do
  IO.print e.out
  IO.eprint e.err
  return UInt32.ofNat e.exitCode

def failWith (f : Failure) : IO UInt32 :=
  finish ⟨1, "", f.message ++ "\n"⟩

def wantsStyles : IO Bool := do
  return Console.wantsStyles (← IO.getEnv "CLICOLOR_FORCE") (← IO.getEnv "NO_COLOR")
    (← IO.getEnv "CLICOLOR") (← (← IO.getStdout).isTty)

def serve (arguments : List String) : IO UInt32 := do
  match ServerOptions.read arguments with
  | .error stop => finish (.ofStop ServerOptions.program stop)
  | .ok options =>
      match ← listen options with
      | none => failWith options.listenFailure
      | some (server, address) =>
          let colored ← wantsStyles
          IO.print (ServerOptions.greeting colored (toString address))
          (← IO.getStdout).flush
          try
            serveClients colored options.once server
            return 0
          catch e =>
            failWith (.io (faultOf e))

/-! ### The demo -/

/-- The state of the address space with another stream behind the bridge at `base`. -/
def withStream (bus : Bus (Bridge Script)) (base : UInt64) (stream : Script) :
    Bus (Bridge Script) :=
  match bus.deviceAt? base with
  | some bridge => bus.setDevice base { bridge with stream := stream }
  | none => bus

/-- Receives bytes until there are enough or no more come, as the script of the reads. -/
partial def receiveScript (client : TCP.Socket.Client) (timeout : Option Nat) (missing : Nat) :
    IO (List ReadStep) := do
  if missing == 0 then return []
  match ← receiveSome client missing timeout with
  | .error e => return [.error e]
  | .ok [] => return [.endOfStream]
  | .ok bytes =>
      return .data bytes :: (← receiveScript client timeout (missing - bytes.length))

/-- Does on the socket what an access asks for, and returns the script of it. -/
def exchange (client : TCP.Socket.Client) (timeout : Option Nat) (c : Call) (request : List UInt8) :
    IO Script := do
  if request.isEmpty then return ⟨[], [], [], []⟩
  match ← sendBytes client request with
  | .error e => return ⟨[], [.error e], [], []⟩
  | .ok () =>
      match c.operation with
      | .write _ => return ⟨[], [], [], []⟩
      | .read => return ⟨← receiveScript client timeout c.size.toNat, [], [], []⟩

partial def drive (client : TCP.Socket.Client) (options : DemoOptions) (stage : Demo.Stage)
    (bus : Bus (Bridge Script)) : IO Demo.Stage := do
  match stage.call? options.base with
  | none => return stage
  | some c =>
      let idle := withStream bus options.base ⟨[], [], [], []⟩
      let asked := (idle.perform c).state.deviceAt? options.base
      let request := (asked.map fun b => b.stream.sent).getD []
      let script ← exchange client options.readTimeout c request
      let o := (withStream bus options.base script).perform c
      drive client options (stage.resume o.answer (Demo.faultsAt o.state options.base)) o.state

def demo (arguments : List String) : IO UInt32 := do
  match DemoOptions.read arguments with
  | .error stop => finish (.ofStop DemoOptions.program stop)
  | .ok options =>
      match ← connect options with
      | .error e => finish (DemoOptions.endWith (options.connectFailure e))
      | .ok client =>
          let bridge : Bridge Script := { stream := ⟨[], [], [], []⟩ }
          let attached := Bus.empty.attach options.base bridge
          let stage ← match attached.answer with
            | .error e => pure (Demo.Stage.failed (.refused e))
            | .ok () => drive client options (.enabling options.messageBytes) attached.state
          discard <| attempt client.shutdown
          match DemoOptions.programEnd? stage with
          | some ended => finish ended
          | none => return 1

end RemoteRegisters.Programs

open RemoteRegisters in
def main (arguments : List String) : IO UInt32 := do
  match arguments with
  | name :: own =>
      if name == ServerOptions.program.name then Programs.serve own
      else if name == DemoOptions.program.name then Programs.demo own
      else
        IO.eprintln ("no such program: " ++ name)
        return 2
  | [] =>
      IO.eprintln ("usage: " ++ ServerOptions.program.name ++ " | " ++ DemoOptions.program.name)
      return 2
