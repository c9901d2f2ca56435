import RemoteRegisters.CommandLine.Program
import RemoteRegisters.Demo
import RemoteRegisters.Host

/-!
# The demo program on the command line

`sockdev-demo` connects to a server, maps the device into an address space of its own and sends a
message through it.
-/

namespace RemoteRegisters

/-- The host and the TCP port of a server. -/
structure Endpoint where
  host : String
  tcpPort : Nat
  deriving DecidableEq, Repr

namespace Endpoint

private def malformed (detail : String) : IoError :=
  ⟨.invalidInput, some detail⟩

/-- Reads a host, a colon and a number. The last colon divides the two. An address of eight groups
may stand in brackets before a number of digits alone. -/
def parse (text : String) : Except IoError Endpoint :=
  let reversed := text.toList.reverse
  match reversed.dropWhile (· ≠ ':') with
  | [] => .error (malformed "invalid socket address")
  | _ :: host =>
      let number := (reversed.takeWhile (· ≠ ':')).reverse
      match Text.readNumeral 10 .unsigned16 number with
      | .error _ => .error (malformed "invalid port value")
      | .ok value =>
          let host := String.ofList host.reverse
          let plain := if number.all Char.isDigit then Host.unbracketed? host else none
          .ok ⟨plain.getD host, value.toNat⟩

end Endpoint

/-- The settings of the demo program. -/
structure DemoOptions where
  connect : String
  base : UInt64
  message : String
  /-- How many milliseconds to wait for a response, if not for ever. -/
  readTimeout : Option Nat
  deriving DecidableEq, Repr

namespace DemoOptions

/-- The address that the device is mapped at unless another one is asked for. -/
def standardBase : Nat := 0x10020000

/-- The message that is sent unless another one is asked for. -/
def standardMessage : String := "Hello from MMIO sockdev\n"

/-- The server that is connected to unless another one is asked for. -/
def standardServer : String := "127.0.0.1:7890"

def program : ProgramSpec where
  name := "sockdev-demo"
  about := none
  options := [
    ⟨"connect", some (textValue "CONNECT"), "Emulator address", some standardServer⟩,
    ⟨"base", some (addressValue "BASE"), "Base address the device window is mapped at",
      some (toString standardBase)⟩,
    ⟨"message", some (textValue "MESSAGE"), "Text to transmit through TXDATA",
      some standardMessage⟩,
    ⟨"read-timeout-ms", some (unsignedValue "READ_TIMEOUT_MS"),
      "Give up on a read response after this many milliseconds", none⟩]

def read (arguments : List String) : Except ReadingStop DemoOptions :=
  (OptionReader.read program.options arguments).map fun given =>
    { connect := textOption given "connect" standardServer
      base := UInt64.ofNat (((numberOption? given "base").map Int.toNat).getD standardBase)
      message := textOption given "message" standardMessage
      readTimeout := (numberOption? given "read-timeout-ms").map Int.toNat }

def messageBytes (o : DemoOptions) : List UInt8 :=
  o.message.toUTF8.toList

def connectFailure (o : DemoOptions) (e : IoError) : Report :=
  (Failure.io e).report.within ("failed to reach emulator at " ++ o.connect)

def endWith (r : Report) : ProgramEnd :=
  ⟨1, "", r.text ++ "\n"⟩

/-- The end of the program for each end of the demo. A demo that is still waiting has no end. -/
def programEnd? : Demo.Stage → Option ProgramEnd
  | .done => some ⟨0, "", ""⟩
  | .failed trouble => some (endWith ⟨trouble.message, []⟩)
  | _ => none

end DemoOptions

end RemoteRegisters
