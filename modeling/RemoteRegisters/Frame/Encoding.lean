import RemoteRegisters.Bytes.LittleEndian
import RemoteRegisters.Frame.Request

/-!
# Frames as bytes

```text
read request   'R'  address (4 bytes)  width             6 bytes
write request  'W'  address (4 bytes)  width  value      6 bytes and the width
read response  value                                     the width
```

Addresses and values are little-endian. Writes are not answered.
-/

namespace RemoteRegisters

/-- The first byte of a frame: `R` for a read, `W` for a write. -/
def AccessKind.tag : AccessKind → UInt8
  | read => 0x52
  | write => 0x57

def AccessKind.ofTag? (b : UInt8) : Option AccessKind :=
  if b = read.tag then some read
  else if b = write.tag then some write
  else none

@[simp]
theorem AccessKind.ofTag?_tag (k : AccessKind) : ofTag? k.tag = some k := by
  cases k <;> rfl

theorem AccessKind.ofTag?_eq_some_iff {b : UInt8} {k : AccessKind} :
    ofTag? b = some k ↔ b = k.tag := by
  constructor
  · intro h
    unfold ofTag? at h
    split at h
    · cases h
      assumption
    · split at h
      · cases h
        assumption
      · cases h
  · rintro rfl
    exact ofTag?_tag k

/-- A register value as it travels, both in a response and behind the header of a write: the low
bytes that the width covers. -/
def encodeValue (value : UInt32) (width : Width) : List UInt8 :=
  LittleEndian.toBytes width.bytes value.toNat

@[simp]
theorem length_encodeValue (value : UInt32) (width : Width) :
    (encodeValue value width).length = width.bytes :=
  LittleEndian.length_toBytes ..

def valueOfBytes (bytes : List UInt8) : UInt32 :=
  UInt32.ofNat (LittleEndian.ofBytes bytes)

/-- The fixed part of a frame. -/
structure Header where
  kind : AccessKind
  addr : UInt32
  width : Width
  deriving DecidableEq, Repr

namespace Header

def payloadLength (h : Header) : Nat :=
  match h.kind with
  | .read => 0
  | .write => h.width.bytes

def encode (h : Header) : List UInt8 :=
  h.kind.tag :: (encodeValue h.addr .word ++ [h.width.tag])

@[simp]
theorem length_encode (h : Header) : h.encode.length = headerLength := by
  simp [encode, headerLength, Width.bytes]

end Header

namespace Request

def header (r : Request) : Header :=
  ⟨r.kind, r.addr, r.width⟩

def payload : Request → List UInt8
  | read .. => []
  | write _ width value => encodeValue value width

def encode (r : Request) : List UInt8 :=
  r.header.encode ++ r.payload

@[simp]
theorem length_encode (r : Request) : r.encode.length = r.frameLength := by
  cases r <;> simp [encode, payload, frameLength]

end Request

end RemoteRegisters
