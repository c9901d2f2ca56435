import RemoteRegisters.Access.Error
import RemoteRegisters.Frame.Error
import RemoteRegisters.Stream.Error

/-!
# Failures of the programs

The programs of this library stop with a `Failure`: one of the faults of the layers below, marked
with the layer it comes from, or a `Report`, which puts a fault into the words of what was being done.
-/

namespace RemoteRegisters

/-- What was being done, and below it what went wrong, outermost first. -/
structure Report where
  message : String
  causes : List String := []
  deriving DecidableEq, Repr

namespace Report

def within (r : Report) (context : String) : Report :=
  ⟨context, r.message :: r.causes⟩

/-- A cause on a line of its own. Causes are numbered where there are several. -/
private def causeLine (several : Bool) (position : Nat) (cause : String) : String :=
  "\n    " ++ (if several then toString position ++ ": " else "") ++ cause

def text (r : Report) : String :=
  let several := decide (1 < r.causes.length)
  let lines := r.causes.mapIdx fun position cause => causeLine several position cause
  "Error: " ++ r.message
    ++ (if r.causes.isEmpty then "" else "\n\nCaused by:" ++ String.join lines)

end Report

/-- A fault of any layer. -/
inductive Failure where
  | access (error : AccessError)
  | frame (error : FrameError)
  | transfer (error : TransferError)
  | io (error : IoError)
  | general (report : Report)
  deriving DecidableEq, Repr

namespace Failure

def cause : Failure → String
  | access error => error.message
  | frame error => error.message
  | transfer error => error.message
  | io error => error.message
  | general report => report.message

def layer : Failure → String
  | access _ => "MMIO error"
  | frame _ => "Protocol error"
  | transfer _ => "Transport error"
  | io _ => "I/O error"
  | general _ => "General error"

def message (f : Failure) : String :=
  f.layer ++ ": " ++ f.cause

/-- The fault as a report, with the fault itself as the cause. -/
def report (f : Failure) : Report :=
  ⟨f.message, [f.cause]⟩

end Failure

end RemoteRegisters
