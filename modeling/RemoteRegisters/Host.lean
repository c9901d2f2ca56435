import RemoteRegisters.Text.Numeral

/-!
# Hosts

A host is given by its address or by a name. Addresses need nobody to be asked. A name has to be
looked up, and a text that is no well-formed name is not looked up at all.

```text
address   four bytes      1.2.3.4, and with fewer parts 1.2.3, 1.2 or 1, the last filling up
          eight groups    1:2:3:4:5:6:7:8, with :: for groups of zero, the last two also 1.2.3.4
                          and with a zone such as %5 for the interface that it belongs to
name      labels of 1 to 63 letters, digits, hyphens and underscores, with points between them
```
-/

namespace RemoteRegisters

/-- The interface that an address belongs to. -/
inductive Zone where
  | number (value : Nat)
  | name (text : String)
  deriving DecidableEq, Repr

/-- An address of eight groups, each of them below `0x10000`. -/
structure LongAddress where
  groups : List Nat
  zone : Option Zone
  deriving DecidableEq, Repr

namespace LongAddress

/-- The address of four bytes that an address of eight groups stands for. -/
def short? (a : LongAddress) : Option Nat :=
  match a.groups with
  | [0, 0, 0, 0, 0, 0xffff, high, low] => some (high * 0x10000 + low)
  | _ => none

def isMulticast (a : LongAddress) : Bool :=
  a.groups.head?.any (0xff00 ≤ ·)

/-- The address of one machine that means another one on each interface. -/
def isLinkLocal (a : LongAddress) : Bool :=
  a.groups.head?.any fun group => 0xfe80 ≤ group && group ≤ 0xfebf

/-- The address of a group of machines that means other ones on each interface: it reaches no further
than the interface or the link behind it. -/
def isLinkLocalMulticast (a : LongAddress) : Bool :=
  a.isMulticast && a.groups.head?.any fun group => group % 0x10 == 1 || group % 0x10 == 2

end LongAddress

/-- The address of a host. -/
inductive HostAddress where
  | short (value : Nat)
  | long (address : LongAddress)
  deriving DecidableEq, Repr

/-- What the text of a host is. -/
inductive HostForm where
  | address (address : HostAddress)
  | name
  | malformed
  deriving DecidableEq, Repr

namespace Host

def numberBelow? (limit radix : Nat) (digits : List Char) : Option Nat :=
  match Text.readDigits radix ⟨0, limit - 1⟩ 1 0 digits with
  | .ok value => if digits.isEmpty then none else some value.toNat
  | .error _ => none

/-- The value of a part of an address of four bytes: in hexadecimal after `0x`, in octal after another
zero, and in decimal otherwise. -/
def partValue? (limit : Nat) (part : String) : Option Nat :=
  match part.toList with
  | '0' :: 'x' :: digits => numberBelow? limit 16 digits
  | '0' :: 'X' :: digits => numberBelow? limit 16 digits
  | '0' :: digit :: digits => numberBelow? limit 8 (digit :: digits)
  | digits => numberBelow? limit 10 digits

/-- An address of four bytes as one number. The last part stands for all bytes that no other part
gives. -/
def shortAddress? (host : String) : Option Nat :=
  let parts := host.splitOn "."
  if 4 < parts.length then none
  else
    match parts.dropLast.mapM (partValue? 256),
        partValue? (1 <<< (8 * (5 - parts.length))) (parts.getLastD "") with
    | some front, some last =>
        some ((front.mapIdx fun position byte => byte <<< (8 * (3 - position))).foldl (· + ·) last)
    | _, _ => none

def shortAddressText (address : Nat) : String :=
  ".".intercalate ([3, 2, 1, 0].map fun place => toString ((address >>> (8 * place)) % 256))

def isLocalName (host : String) : Bool :=
  host.toLower == "localhost"

def byteValue? (part : String) : Option Nat :=
  match part.toList with
  | '0' :: _ :: _ => none
  | digits => numberBelow? 256 10 digits

def quadGroups? (text : String) : Option (List Nat) :=
  match (text.splitOn ".").mapM byteValue? with
  | some [a, b, c, d] => some [a * 256 + b, c * 256 + d]
  | _ => none

/-- The value of one group of an address of eight groups. -/
def groupValue? (text : String) : Option Nat :=
  if text.length ≤ 4 then numberBelow? 0x10000 16 text.toList else none

/-- The groups of a row. Four bytes at its end stand for two. -/
def rowGroups? (text : String) : Option (List Nat) :=
  let row := text.splitOn ":"
  if text.isEmpty then some []
  else
    match row.mapM groupValue?, row.dropLast.mapM groupValue?, quadGroups? (row.getLastD "") with
    | some groups, _, _ => some groups
    | none, some front, some quad => some (front ++ quad)
    | none, _, _ => none

/-- The eight groups of an address. Two colons stand for at least one group of zero, and only the
last groups can be four bytes. -/
def groups? (text : String) : Option (List Nat) :=
  match text.splitOn "::" with
  | [whole] => (rowGroups? whole).filter (·.length == 8)
  | [front, back] =>
      match rowGroups? front, rowGroups? back with
      | some m, some n =>
          if m.length + n.length ≤ 7 && !front.toList.contains '.' then
            some (m ++ List.replicate (8 - m.length - n.length) 0 ++ n)
          else none
      | _, _ => none
  | _ => none

/-- The interface that a text behind a `%` gives. Every interface has a number, but only those of
link-local addresses are known by their names. -/
def zone? (address : LongAddress) (text : String) : Option Zone :=
  match numberBelow? 0x1_0000_0000 10 text.toList with
  | some number => some (.number number)
  | none =>
      if address.isLinkLocal || address.isLinkLocalMulticast then some (.name text) else none

/-- An address of eight groups, with the interface behind a `%` if there is one. -/
def longAddress? (host : String) : Option LongAddress :=
  let address := (groups? ((host.splitOn "%").headD "")).map (LongAddress.mk · none)
  match address, (host.splitOn "%").tail with
  | some address, [] => some address
  | some address, zone => (zone? address ("%".intercalate zone)).map (⟨address.groups, some ·⟩)
  | none, _ => none

/-- The address of eight groups between the brackets that set it off from a TCP port. An interface
is given by its number there. -/
def unbracketed? (host : String) : Option String :=
  match host.toList with
  | '[' :: rest =>
      let inner := String.ofList rest.dropLast
      let isPlain (a : LongAddress) : Bool := match a.zone with
        | some (.name _) => false
        | _ => true
      if rest.getLast? == some ']' && (longAddress? inner).any isPlain then some inner else none
  | _ => none

def isNameChar (c : Char) : Bool :=
  c.isAlphanum || c == '-' || c == '_'

/-- A well-formed name. It may end with a point, and does not begin with a hyphen. -/
def isName (host : String) : Bool :=
  let labels := host.splitOn "."
  let labels := if 1 < labels.length && labels.getLastD "" == "" then labels.dropLast else labels
  host == "." ||
    (labels.all (fun label => 0 < label.length && label.length ≤ 63 && label.toList.all isNameChar)
      && (String.intercalate "." labels).length ≤ 253
      && host.toList.head? != some '-')

def form (host : String) : HostForm :=
  match shortAddress? host, longAddress? host with
  | some value, _ => .address (.short value)
  | none, some a => .address (.long a)
  | none, none => if isName host then .name else .malformed

end Host

end RemoteRegisters
