import RemoteRegisters.Text.ControlSequence

/-!
# Reading command lines

A program declares its options; `OptionReader.read` goes through the arguments from left to right.

* An option is `--name`. One with a value takes it from behind an equals sign or from the next
  argument, unless that starts with a hyphen. A single hyphen is a value.
* `--help`, `-h`, `--version` and `-V` end the reading.
* After `--` all arguments are positional, and no program here has positional arguments.

An option that stands apart from its value is checked when the next option comes, or at the end of
the arguments. An argument that is unknown is reported before that.
-/

namespace RemoteRegisters

/-- The value of an option. -/
inductive OptionValue where
  | text (value : String)
  | number (value : Int)
  deriving DecidableEq, Repr

/-- The value that an option takes: what it is called, and how it is read. -/
structure ValueSpec where
  placeholder : String
  read : String → Except String OptionValue

/-- An option of a program. One without a value is a switch. -/
structure OptionSpec where
  name : String
  value : Option ValueSpec
  about : String
  /-- The value that stands in for one that is not given. -/
  otherwise : Option String := none

def OptionSpec.shown (o : OptionSpec) : String :=
  match o.value with
  | none => "--" ++ o.name
  | some v => "--" ++ o.name ++ " <" ++ v.placeholder ++ ">"

/-- What can be wrong with a command line. -/
inductive UsageError where
  | unexpectedArgument (argument : String)
  | unexpectedValue (value option : String)
  | missingValue (option : String)
  | repeated (option : String)
  | invalidValue (value option reason : String)
  deriving DecidableEq, Repr

def quoted (argument : String) : String :=
  "'" ++ Text.withoutControls argument ++ "'"

def UsageError.message : UsageError → String
  | unexpectedArgument argument => "error: unexpected argument " ++ quoted argument ++ " found"
  | unexpectedValue value option =>
      "error: unexpected value " ++ quoted value ++ " for " ++ quoted option
        ++ " found; no more were expected"
  | missingValue option =>
      "error: a value is required for " ++ quoted option ++ " but none was supplied"
  | repeated option => "error: the argument " ++ quoted option ++ " cannot be used multiple times"
  | invalidValue value option reason =>
      "error: invalid value " ++ quoted value ++ " for " ++ quoted option ++ ": " ++ reason

/-- Why reading the arguments ended before the program could run. -/
inductive ReadingStop where
  | usage (error : UsageError)
  | version
  | help
  deriving DecidableEq, Repr

/-- An option that was given, with its value unless it is a switch. -/
structure GivenOption where
  name : String
  value : Option OptionValue
  deriving DecidableEq, Repr

/-- An argument by its shape. -/
inductive Argument where
  | separator
  | long (name : List Char) (attached : Option (List Char))
  | short (letter : Char)
  | plain
  deriving DecidableEq, Repr

def Argument.ofChars : List Char → Argument
  | ['-', '-'] => separator
  | '-' :: '-' :: rest =>
      match rest.dropWhile (· ≠ '=') with
      | [] => long rest none
      | _ :: value => long (rest.takeWhile (· ≠ '=')) (some value)
  | '-' :: letter :: _ => short letter
  | _ => plain

/-- The options read so far, and the one that still waits for a value or for its check. -/
structure OptionReader where
  given : List GivenOption := []
  pending : Option (OptionSpec × Option String) := none

namespace OptionReader

abbrev Result := Except ReadingStop OptionReader

def fail {α : Type} (e : UsageError) : Except ReadingStop α :=
  .error (.usage e)

def add (r : OptionReader) (o : OptionSpec) (value : Option OptionValue) : OptionReader :=
  { given := r.given ++ [⟨o.name, value⟩], pending := none }

def has (r : OptionReader) (o : OptionSpec) : Bool :=
  r.given.any (·.name == o.name)

def addSwitch (r : OptionReader) (o : OptionSpec) : Result :=
  if r.has o then fail (.repeated o.shown) else .ok (r.add o none)

/-- Gives an option its value. A repeated option is reported before a value that is wrong. -/
def addValue (r : OptionReader) (o : OptionSpec) (v : ValueSpec) (text : String) : Result :=
  if r.has o then fail (.repeated o.shown)
  else
    match v.read text with
    | .error reason => fail (.invalidValue text o.shown reason)
    | .ok value => .ok (r.add o (some value))

def settle (r : OptionReader) : Result :=
  match r.pending with
  | none => .ok r
  | some (o, none) => fail (.missingValue o.shown)
  | some (o, some text) =>
      match o.value with
      | none => .ok r
      | some v => r.addValue o v text

/-- An argument that is no option: the value that is pending, or one too many. -/
def plain (r : OptionReader) (argument : String) : Result :=
  match r.pending with
  | some (o, none) => .ok { r with pending := some (o, some argument) }
  | _ => fail (.unexpectedArgument argument)

/-- Ends the reading, after the option that is pending has been settled. -/
def stop (r : OptionReader) (why : ReadingStop) : Result :=
  r.settle.bind fun _ => .error why

def long (specs : List OptionSpec) (r : OptionReader) (name : String) (attached : Option String) :
    Result :=
  let ending := [("help", ReadingStop.help), ("version", ReadingStop.version)]
  match ending.lookup name, attached, specs.find? (·.name == name) with
  | some why, none, _ => r.stop why
  | some _, some value, _ => fail (.unexpectedValue value ("--" ++ name))
  | none, _, none => fail (.unexpectedArgument ("--" ++ name))
  | none, attached, some o =>
      match o.value, attached with
      | none, none => r.settle.bind fun r => r.addSwitch o
      | none, some value => fail (.unexpectedValue value o.shown)
      | some v, some value => r.settle.bind fun r => r.addValue o v value
      | some _, none =>
          r.settle.bind fun r => .ok { r with pending := some (o, none) }

def readFrom (specs : List OptionSpec) (r : OptionReader) : List String → Result
  | [] => r.settle
  | argument :: later =>
      match Argument.ofChars argument.toList with
      | .separator =>
          match later with
          | [] => r.settle
          | positional :: _ => fail (.unexpectedArgument positional)
      | .long name attached =>
          match long specs r (String.ofList name) (attached.map String.ofList) with
          | .error why => .error why
          | .ok r => readFrom specs r later
      | .short 'h' => r.stop .help
      | .short 'V' => r.stop .version
      | .short letter => fail (.unexpectedArgument ("-" ++ letter.toString))
      | .plain =>
          match r.plain argument with
          | .error why => .error why
          | .ok r => readFrom specs r later

/-- Reads all arguments of a program with the given options. -/
def read (specs : List OptionSpec) (arguments : List String) :
    Except ReadingStop (List GivenOption) :=
  (readFrom specs {} arguments).map OptionReader.given

end OptionReader

def textOption (given : List GivenOption) (name otherwise : String) : String :=
  match given.find? (·.name == name) with
  | some ⟨_, some (.text value)⟩ => value
  | _ => otherwise

/-- The value of an option that reads as a number, if it was given. -/
def numberOption? (given : List GivenOption) (name : String) : Option Int :=
  match given.find? (·.name == name) with
  | some ⟨_, some (.number value)⟩ => some value
  | _ => none

def switchOption (given : List GivenOption) (name : String) : Bool :=
  given.any (·.name == name)

end RemoteRegisters
