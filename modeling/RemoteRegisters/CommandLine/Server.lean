import RemoteRegisters.CommandLine.Program
import RemoteRegisters.Console
import RemoteRegisters.Server

/-!
# The server program on the command line

`mmio-device-server` offers the standard registers to one client at a time and shows on its console
what they transmit.
-/

namespace RemoteRegisters

/-- The settings of the server program. -/
structure ServerOptions where
  bind : String
  tcpPort : Nat
  once : Bool
  deriving DecidableEq, Repr

namespace ServerOptions

/-- The address to listen on unless another one is asked for. -/
def standardBind : String := "127.0.0.1"

/-- The TCP port to listen on unless another one is asked for. -/
def standardPort : Nat := 7890

def program : ProgramSpec where
  name := "mmio-device-server"
  about := some "Remote register emulator for the MMIO socket device"
  options := [
    ⟨"bind", some (textValue "BIND"), "Address to listen on", some standardBind⟩,
    ⟨"port", some (portValue "PORT"), "TCP port to listen on",
      some (toString standardPort)⟩,
    ⟨"once", none, "Exit after the first client disconnects", none⟩]

def read (arguments : List String) : Except ReadingStop ServerOptions :=
  (OptionReader.read program.options arguments).map fun given =>
    { bind := textOption given "bind" standardBind
      tcpPort := ((numberOption? given "port").map Int.toNat).getD standardPort
      once := switchOption given "once" }

/-- The address to listen on, as it is shown to the user. -/
def address (o : ServerOptions) : String :=
  o.bind ++ ":" ++ toString o.tcpPort

def listenFailure (o : ServerOptions) : Failure :=
  .general ⟨"failed to listen on " ++ o.address, []⟩

/-- What the program prints when it listens at an address. -/
def greeting (colored : Bool) (address : String) : String :=
  Console.banner colored address .standard

/-- What the program prints when the only client has gone. -/
def farewell : String := "\n"

end ServerOptions

/-- The course of the server program as far as some clients take it. -/
structure ServerCourse where
  served : List ServedClient
  out : String
  /-- The program has ended by itself, which it does only after a single client. -/
  ended : Bool
  deriving DecidableEq, Repr

/-- Serves the clients that come to the program while it listens at an address. -/
def ServerOptions.course (o : ServerOptions) (colored : Bool) (address : String)
    (requests : List (List UInt8)) : ServerCourse :=
  let served := (Server.mk .standard).serveAll (if o.once then requests.take 1 else requests)
  let shown := served.map fun client => Console.renderAll colored client.session.output
  let ended := o.once && !requests.isEmpty
  { served := served
    out := greeting colored address ++ String.join shown ++ (if ended then farewell else "")
    ended := ended }

end RemoteRegisters
