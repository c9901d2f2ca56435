import RemoteRegisters.CommandLine.Options

/-!
# Help texts

The help of a program says what it is for, how it is called and which options it has. Each option
stands in a column of its own with its description beside it. Where that would leave too little room
for a description, all descriptions go below their options instead.
-/

namespace RemoteRegisters

/-- A program as its users see it. -/
structure ProgramSpec where
  name : String
  about : Option String
  options : List OptionSpec

/-- One option in a help text. -/
structure HelpEntry where
  letter : Option Char
  shown : String
  about : String
  remark : String
  deriving DecidableEq, Repr

/-- How a help text is set out. -/
structure HelpLayout where
  width : Nat
  /-- What a line holds besides the widest option and the description: the margin, the letter and
  the gap between the columns. -/
  margin : Nat
  /-- The share of a line, in percent, that the options may take in any case. -/
  share : Nat

namespace HelpEntry

private def quotedChar : Char → String
  | '"' => "\\\""
  | '\\' => "\\\\"
  | '\n' => "\\n"
  | '\r' => "\\r"
  | '\t' => "\\t"
  | c => String.singleton c

/-- A value as a remark shows it: in quotes if it has blanks. -/
def valueText (value : String) : String :=
  if value.toList.any Char.isWhitespace then
    "\"" ++ String.join (value.toList.map quotedChar) ++ "\""
  else value

def ofOption (o : OptionSpec) : HelpEntry where
  letter := none
  shown := o.shown
  about := o.about
  remark := (o.otherwise.map fun value => "[default: " ++ valueText value ++ "]").getD ""

def standard : List HelpEntry := [
  ⟨some 'h', "--help", "Print help", ""⟩,
  ⟨some 'V', "--version", "Print version", ""⟩]

def option (e : HelpEntry) : String :=
  "  " ++ (match e.letter with
    | some letter => "-" ++ String.singleton letter ++ ", "
    | none => "    ") ++ e.shown

def description (e : HelpEntry) : String :=
  e.about ++ (if e.remark.isEmpty then "" else " " ++ e.remark)

/-- The entry with the description in a column beside options of at most `widest` characters. -/
def beside (widest : Nat) (e : HelpEntry) : String :=
  e.option ++ String.ofList (List.replicate (widest + 2 - e.shown.length) ' ') ++ e.description

/-- The entry with the description on a line below the option. -/
def below (e : HelpEntry) : String :=
  e.option ++ "\n          " ++ e.description

end HelpEntry

namespace HelpLayout

def standard : HelpLayout := ⟨100, 8, 40⟩

/-- Whether a description has too little room beside options of at most `widest` characters. Options
that take no more than their share leave enough room for any description. -/
def isCramped (layout : HelpLayout) (widest : Nat) (e : HelpEntry) : Bool :=
  let taken := widest + layout.margin
  taken ≤ layout.width && layout.share * layout.width < 100 * taken
    && layout.width - taken < e.about.length + e.remark.length

def lines (layout : HelpLayout) (entries : List HelpEntry) : List String :=
  let widest := (entries.map fun e => e.shown.length).foldl max 0
  entries.map (if entries.any (layout.isCramped widest) then HelpEntry.below
    else HelpEntry.beside widest)

end HelpLayout

namespace ProgramSpec

def help (p : ProgramSpec) : String :=
  let entries := p.options.map HelpEntry.ofOption ++ HelpEntry.standard
  (p.about.map (· ++ "\n\n")).getD ""
    ++ "Usage: " ++ p.name ++ " [OPTIONS]\n\nOptions:\n"
    ++ String.join ((HelpLayout.standard.lines entries).map (· ++ "\n"))

end ProgramSpec

end RemoteRegisters
