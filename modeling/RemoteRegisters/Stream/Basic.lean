import RemoteRegisters.Stream.Error

/-!
# Byte streams

A byte stream is a state with three calls on it: `read` asks for at most so many bytes, `write`
offers bytes of which the stream takes some, and `flush` pushes what was taken on its way. A read of
no bytes means that the stream has ended, and a write that takes none that it takes no more.

## Main definitions

* `ByteStream` is the class of such states. Its laws bound what a call delivers and takes, and say
  that calls are not interrupted for ever.
* `FiniteStream` are the streams that can deliver only so many bytes more. A conversation over one of
  them comes to an end.

## Design notes

The calls are pure: each returns the state that it leaves. `patience` is not part of what a stream
does; it is the bound by which repeating an interrupted call is seen to end.
-/

namespace RemoteRegisters

/-- A state on which bytes can be read and written in pieces. -/
class ByteStream (σ : Type) where
  /-- Asks for at most a number of bytes. No bytes mean the end of the stream. -/
  read : σ → Nat → Except IoError (List UInt8) × σ
  /-- Offers bytes and returns how many of them, from the front, were taken. -/
  write : σ → List UInt8 → Except IoError Nat × σ
  flush : σ → Except IoError Unit × σ
  /-- A bound on the number of calls that can still be interrupted. -/
  patience : σ → Nat
  length_of_read {s s' : σ} {n : Nat} {bytes : List UInt8} :
    read s n = (.ok bytes, s') → bytes.length ≤ n
  le_of_write {s s' : σ} {bytes : List UInt8} {n : Nat} :
    write s bytes = (.ok n, s') → n ≤ bytes.length
  patience_of_read {s s' : σ} {n : Nat} {e : IoError} :
    read s n = (.error e, s') → e.kind = .interrupted → patience s' < patience s
  patience_of_write {s s' : σ} {bytes : List UInt8} {e : IoError} :
    write s bytes = (.error e, s') → e.kind = .interrupted → patience s' < patience s

def deliveredBytes : Except IoError (List UInt8) → Nat
  | .ok bytes => bytes.length
  | .error _ => 0

/-- A stream with a bound on the bytes that it can still deliver. -/
class FiniteStream (σ : Type) extends ByteStream σ where
  /-- A bound on the number of bytes that reads can still deliver. -/
  supply : σ → Nat
  supply_of_read {s s' : σ} {n : Nat} {r : Except IoError (List UInt8)} :
    read s n = (r, s') → supply s' + deliveredBytes r ≤ supply s
  supply_of_write {s s' : σ} {bytes : List UInt8} {r : Except IoError Nat} :
    write s bytes = (r, s') → supply s' ≤ supply s
  supply_of_flush {s s' : σ} {r : Except IoError Unit} :
    flush s = (r, s') → supply s' ≤ supply s

end RemoteRegisters
