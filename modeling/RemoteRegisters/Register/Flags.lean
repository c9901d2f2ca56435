/-!
# Flags in registers

Two of the device's registers carry one flag each, in bit 0. The other bits are kept as they are.
-/

namespace RemoteRegisters

def lowFlag (raw : UInt32) : Bool :=
  raw &&& 1 = 1

/-- The word with bit 0 set or cleared and all other bits kept. -/
def setLowFlag (raw : UInt32) (on : Bool) : UInt32 :=
  if on then raw ||| 1 else raw &&& 0xFFFF_FFFE

/-- The status register of the transmitter. -/
structure StatusFlags where
  raw : UInt32
  deriving DecidableEq, Repr

namespace StatusFlags

def txReady (s : StatusFlags) : Bool :=
  lowFlag s.raw

def setTxReady (s : StatusFlags) (on : Bool) : StatusFlags :=
  ⟨setLowFlag s.raw on⟩

/-- Ready, and nothing else set: what the device always reports. -/
def ready : StatusFlags :=
  setTxReady ⟨0⟩ true

end StatusFlags

/-- The control register of the device. -/
structure ControlFlags where
  raw : UInt32
  deriving DecidableEq, Repr

namespace ControlFlags

def enable (c : ControlFlags) : Bool :=
  lowFlag c.raw

def setEnable (c : ControlFlags) (on : Bool) : ControlFlags :=
  ⟨setLowFlag c.raw on⟩

/-- Enabled, and nothing else set: the state after a reset. -/
def reset : ControlFlags :=
  setEnable ⟨0⟩ true

end ControlFlags

end RemoteRegisters
