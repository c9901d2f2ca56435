/-!
# Reading numerals

Numbers on a command line are read digit by digit from the left, with an optional sign in front. The
first thing that goes wrong decides what is reported: a character that is no digit, or a value that
has left the range of the type. Of one character, that it is no digit counts first.
-/

namespace RemoteRegisters.Text

/-- Why a text is not a numeral of a type. -/
inductive NumeralFault where
  | empty
  | invalidDigit
  | tooLarge
  | tooSmall
  deriving DecidableEq, Repr

def NumeralFault.message : NumeralFault → String
  | empty => "cannot parse integer from empty string"
  | invalidDigit => "invalid digit found in string"
  | tooLarge => "number too large to fit in target type"
  | tooSmall => "number too small to fit in target type"

/-- A range of whole numbers, both ends included. -/
structure NumeralRange where
  low : Int
  high : Int

namespace NumeralRange

def unsigned16 : NumeralRange := ⟨0, 0xFFFF⟩

def unsigned64 : NumeralRange := ⟨0, 0xFFFF_FFFF_FFFF_FFFF⟩

def signed64 : NumeralRange := ⟨-0x8000_0000_0000_0000, 0x7FFF_FFFF_FFFF_FFFF⟩

end NumeralRange

/-- The value of a digit below `radix`, in either case. -/
def digitValue? (radix : Nat) (c : Char) : Option Nat :=
  let value :=
    if '0' ≤ c ∧ c ≤ '9' then some (c.toNat - '0'.toNat)
    else if 'a' ≤ c ∧ c ≤ 'z' then some (c.toNat - 'a'.toNat + 10)
    else if 'A' ≤ c ∧ c ≤ 'Z' then some (c.toNat - 'A'.toNat + 10)
    else none
  value.filter (· < radix)

/-- Goes on with a number whose digits so far give `value`. Each digit moves the number away from
zero in the direction of `sign`. -/
def readDigits (radix : Nat) (range : NumeralRange) (sign : Int) (value : Int) :
    List Char → Except NumeralFault Int
  | [] => .ok value
  | c :: cs =>
      match digitValue? radix c with
      | none => .error .invalidDigit
      | some d =>
          let next := value * radix + sign * d
          if range.high < next then .error .tooLarge
          else if next < range.low then .error .tooSmall
          else readDigits radix range sign next cs

/-- Reads a whole text as a number. A minus sign is one only where the range has negative numbers,
and a sign alone is no number. -/
def readNumeral (radix : Nat) (range : NumeralRange) (text : List Char) :
    Except NumeralFault Int :=
  match text with
  | [] => .error .empty
  | ['+'] => .error .invalidDigit
  | ['-'] => .error .invalidDigit
  | '+' :: digits => readDigits radix range 1 0 digits
  | '-' :: digits =>
      if range.low < 0 then readDigits radix range (-1) 0 digits
      else .error .invalidDigit
  | digits => readDigits radix range 1 0 digits

/-- Reads a number, in hexadecimal after `0x` or `0X` and in decimal otherwise. -/
def readAddress (text : List Char) : Except NumeralFault Int :=
  match text with
  | '0' :: 'x' :: digits => readNumeral 16 .unsigned64 digits
  | '0' :: 'X' :: digits => readNumeral 16 .unsigned64 digits
  | digits => readNumeral 10 .unsigned64 digits

end RemoteRegisters.Text
