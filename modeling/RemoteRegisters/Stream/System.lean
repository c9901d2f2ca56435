import RemoteRegisters.Stream.Error

/-!
# Faults of the operating system

The system numbers its faults. `IoError.ofSystem` gives the kind and the text of those that can meet
a program that talks over sockets. Faults of looking a host up have texts but no numbers.
-/

namespace RemoteRegisters

/-- The kinds and texts of system faults, by their numbers. -/
def systemFaults : List (Nat × IoError.Kind × String) := [
  (4, .interrupted, "Interrupted system call"),
  (11, .wouldBlock, "Resource temporarily unavailable"),
  (13, .other, "Permission denied"),
  (22, .invalidInput, "Invalid argument"),
  (32, .brokenPipe, "Broken pipe"),
  (98, .addressInUse, "Address already in use"),
  (99, .other, "Cannot assign requested address"),
  (101, .networkUnreachable, "Network is unreachable"),
  (103, .connectionAborted, "Software caused connection abort"),
  (104, .connectionReset, "Connection reset by peer"),
  (110, .timedOut, "Connection timed out"),
  (111, .connectionRefused, "Connection refused"),
  (113, .other, "No route to host")]

namespace IoError

/-- The system fault with a number, if it is one of the table. -/
def ofSystem? (number : Nat) : Option IoError :=
  (systemFaults.lookup number).map fun fault =>
    ⟨fault.1, some (fault.2 ++ " (os error " ++ toString number ++ ")")⟩

def ofSystem (number : Nat) : IoError :=
  (ofSystem? number).getD ⟨.other, some ("Unknown error (os error " ++ toString number ++ ")")⟩

/-- The fault of a read that has waited as long as it may. -/
def waitedInVain : IoError :=
  ofSystem 11

def lookupFailed (reason : String) : IoError :=
  ⟨.other, some ("failed to lookup address information: " ++ reason)⟩

def unknownHost : IoError :=
  lookupFailed "Name or service not known"

/-- Nobody answered the question for the name of a host. -/
def unansweredLookup : IoError :=
  lookupFailed "Temporary failure in name resolution"

def zeroTimeout : IoError :=
  ⟨.invalidInput, some "cannot set a 0 duration timeout"⟩

end IoError

end RemoteRegisters
