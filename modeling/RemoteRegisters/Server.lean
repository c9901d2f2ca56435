import RemoteRegisters.Session.Run
import RemoteRegisters.Stream.Script

/-!
# Serving clients

A server owns a register map and serves one client at a time, each with a session on registers in
their reset state. `Server.serve` is the whole course of a client that sends some bytes, closes its
sending side and then reads the responses.
-/

namespace RemoteRegisters

/-- What came of one client. -/
structure ServedClient where
  session : Session
  responses : List UInt8
  deriving DecidableEq, Repr

/-- A server with the registers that it offers. -/
structure Server where
  registers : RegisterMap
  deriving DecidableEq, Repr

namespace Server

def serve (server : Server) (request : List UInt8) : ServedClient :=
  let course := (Session.ofMap server.registers).run (Script.ofBytes request)
  ⟨course.1, course.2.sent⟩

def serveAll (server : Server) (requests : List (List UInt8)) : List ServedClient :=
  requests.map server.serve

end Server

end RemoteRegisters
