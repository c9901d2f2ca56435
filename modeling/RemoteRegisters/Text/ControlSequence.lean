/-!
# Control sequences in a text

A terminal takes some characters for commands. `withoutControls` leaves them out of a text that is
shown where there may be no terminal: single control characters, and sequences that an escape
character begins.

```text
escape  final                                     a command of one character
escape  blank to slash ...  final                 the same with characters before the final one
escape  [  parameters ...  @ to ~                 a command with parameters
escape  ]  text ...  bell                         a command with a text
escape  P  head ...  @ to ~  data ...  end        a string to the device
escape  X or ^ or _  data ...  end                other strings
```

The end of a string is the byte 0x9C, which occurs within the encoded form of some characters. An
escape character begins a new sequence within any other one, and two control characters (0x18 and
0x1A) break a sequence off.

Tabs and the ends of lines and pages are part of the text. Within a command they interrupt it: the
text after them is shown until the next control character, with which the command goes on.

The main statement is `withoutControls_of_forall_isText`: a text without control characters is left
as it is.
-/

namespace RemoteRegisters.Text

/-- How far a control sequence has got. -/
inductive SequenceState where
  | none
  | escape
  | command
  | parameters
  | text
  /-- At the head of a string to the device: before its parameters, in them, and after them. -/
  | head
  | headParameters
  | headEnd
  | string
  deriving DecidableEq, Repr

def isLayout (c : Char) : Bool :=
  c == '\t' || c == '\n' || c == '\x0c' || c == '\r'

/-- Characters that are part of a text. Those beyond the first 128 all are. -/
def isText (c : Char) : Bool :=
  (0x20 ≤ c.toNat && c.toNat ≠ 0x7F) || isLayout c

/-- Whether a character lies in a range of the first 128. -/
private def within (low high : Nat) (c : Char) : Bool :=
  low ≤ c.toNat && c.toNat ≤ high

/-- Whether a character, in its encoded form, ends a string. -/
def endsString (c : Char) : Bool :=
  (String.utf8EncodeChar c).contains 0x9C

namespace SequenceState

def afterEscape (c : Char) : SequenceState :=
  if c = '[' then parameters
  else if c = ']' then text
  else if c = 'P' then head
  else if c = 'X' || c = '^' || c = '_' then string
  else if within 0x20 0x2F c then command
  else if within 0x30 0x7E c then none
  else escape

/-- The state after a character that begins or breaks off no sequence. -/
def proceed (s : SequenceState) (c : Char) : SequenceState :=
  match s with
  | none => none
  | escape => afterEscape c
  | command => if within 0x30 0x7E c then none else command
  | parameters => if within 0x40 0x7E c then none else parameters
  | text => if c = '\x07' then none else text
  | head =>
      if within 0x20 0x2F c then headEnd
      else if within 0x30 0x3F c then headParameters
      else if within 0x40 0x7E c then string
      else head
  | headParameters =>
      if within 0x20 0x2F c then headEnd
      else if within 0x3C 0x7E c then string
      else headParameters
  | headEnd => if within 0x30 0x7E c then string else headEnd
  | string => if endsString c then none else string

def next (s : SequenceState) (c : Char) : SequenceState :=
  if c = '\x1b' then escape
  else if c = '\x18' || c = '\x1a' then none
  else s.proceed c

def shows : SequenceState → Char → Bool
  | none, c => isText c
  | escape, c => isLayout c
  | command, c => isLayout c
  | parameters, c => isLayout c
  | _, _ => false

end SequenceState

/-- What is shown of a text in a state. While a sequence is interrupted the text is shown, and a
character beyond the first 128 ends the sequence for good. -/
def shownFrom (s : SequenceState) (interrupted : Bool) : List Char → List Char
  | [] => []
  | c :: cs =>
      if interrupted && isText c then
        c :: shownFrom (if 0x80 ≤ c.toNat then .none else s) true cs
      else if s.shows c then c :: shownFrom (s.next c) true cs
      else shownFrom (s.next c) false cs

/-- A text without its control characters and sequences. -/
def withoutControls (text : String) : String :=
  String.ofList (shownFrom .none false text.toList)

theorem shownFrom_none_of_forall_isText {cs : List Char} (h : ∀ c ∈ cs, isText c = true)
    (interrupted : Bool) : shownFrom .none interrupted cs = cs := by
  induction cs generalizing interrupted with
  | nil => rfl
  | cons c cs ih =>
    have text : isText c = true := h c List.mem_cons_self
    have rest := ih fun d hd => h d (List.mem_cons_of_mem c hd)
    have stays : SequenceState.none.next c = .none := by
      unfold SequenceState.next
      split
      · rename_i escape
        subst escape
        exact absurd text (by decide)
      · split <;> rfl
    simp only [shownFrom, text, Bool.and_true, SequenceState.shows, stays, ite_self, if_true, rest]

theorem withoutControls_of_forall_isText {text : String}
    (h : ∀ c ∈ text.toList, isText c = true) : withoutControls text = text := by
  rw [withoutControls, shownFrom_none_of_forall_isText h, String.ofList_toList]

end RemoteRegisters.Text
