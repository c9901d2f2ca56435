import RemoteRegisters.CommandLine.Help
import RemoteRegisters.Failure
import RemoteRegisters.Text.Numeral

/-!
# What the programs have in common

A program ends with an exit code and has written to its two outputs by then. Exit code 2 stands for
a wrong command line, 1 for a failure.
-/

namespace RemoteRegisters

/-- The end of a program and what it wrote. -/
structure ProgramEnd where
  exitCode : Nat
  out : String := ""
  err : String := ""
  deriving DecidableEq, Repr

def programVersion : String := "0.1.0"

namespace ProgramEnd

/-- A program that stopped while reading its arguments. -/
def ofStop (program : ProgramSpec) : ReadingStop → ProgramEnd
  | .usage error => ⟨2, "", error.message ++ "\n"⟩
  | .version => ⟨0, program.name ++ " " ++ programVersion ++ "\n", ""⟩
  | .help => ⟨0, program.help, ""⟩

end ProgramEnd

def textValue (placeholder : String) : ValueSpec where
  placeholder := placeholder
  read text := .ok (.text text)

def unsignedValue (placeholder : String) : ValueSpec where
  placeholder := placeholder
  read text :=
    match Text.readNumeral 10 .unsigned64 text.toList with
    | .ok value => .ok (.number value)
    | .error fault => .error fault.message

/-- An address, in hexadecimal after `0x` and in decimal otherwise. -/
def addressValue (placeholder : String) : ValueSpec where
  placeholder := placeholder
  read text :=
    match Text.readAddress text.toList with
    | .ok value => .ok (.number value)
    | .error fault => .error fault.message

/-- The number of a TCP port. It is read as a number with a sign before its range is checked. -/
def portValue (placeholder : String) : ValueSpec where
  placeholder := placeholder
  read text :=
    match Text.readNumeral 10 .signed64 text.toList with
    | .error fault => .error fault.message
    | .ok value =>
        if 0 ≤ value ∧ value ≤ 65535 then .ok (.number value)
        else .error (toString value ++ " is not in 0..=65535")

end RemoteRegisters
