import RemoteRegisters.Bridge
import RemoteRegisters.Bus
import RemoteRegisters.Remote

/-!
# Whole connections

A connection joins a fresh bridge to a fresh session. Its accesses are made on the bridge itself or,
where the bridge is mapped into an address space, on that. When they are done the bridge hangs up
and the session ends. `Connection.run` is the whole course of it.
-/

namespace RemoteRegisters

/-- The accesses of a connection and where they are made. -/
inductive Connection where
  | direct (calls : List Call)
  /-- On an address space with the bridge at `base`, by address. -/
  | mapped (base : UInt64) (calls : List Call)
  deriving DecidableEq, Repr

/-- What came of one access on a connection. -/
structure ConnectionStep where
  answer : Answer
  faults : Nat

/-- The course of a connection. -/
structure ConnectionRun where
  /-- Why the bridge could not be mapped, if it could not. -/
  refusal : Option AccessError
  steps : List ConnectionStep
  session : Session

namespace Connection

/-- A fresh bridge to a fresh session on the registers of a map. -/
def bridge (m : RegisterMap) : Bridge Remote where
  stream := .ofMap m

def mappedBridge (bus : Bus (Bridge Remote)) (base : UInt64) (fresh : Bridge Remote) :
    Bridge Remote :=
  (bus.deviceAt? base).getD fresh

def run (m : RegisterMap) : Connection → ConnectionRun
  | direct calls =>
      let fresh := bridge m
      { refusal := none
        steps := (fresh.performAll calls).map fun o => ⟨o.answer, o.state.faults⟩
        session := (fresh.after calls).stream.hangUp }
  | mapped base calls =>
      let fresh := bridge m
      let attached := Bus.empty.attach base fresh
      match attached.answer with
      | .error e =>
          { refusal := some e
            steps := []
            session := fresh.stream.hangUp }
      | .ok () =>
          let bridgeIn := fun bus => mappedBridge bus base fresh
          { refusal := none
            steps := (attached.state.performAll calls).map fun o =>
              ⟨o.answer, (bridgeIn o.state).faults⟩
            session := (bridgeIn (attached.state.after calls)).stream.hangUp }

/-- Connections one after the other, each on registers in their reset state. -/
def runAll (m : RegisterMap) (connections : List Connection) : List ConnectionRun :=
  connections.map (run m)

end Connection

end RemoteRegisters
