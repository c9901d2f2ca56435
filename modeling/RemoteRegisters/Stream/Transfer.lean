import RemoteRegisters.Stream.Basic

/-!
# Sending and receiving whole byte strings

One call on a stream may move only some of the bytes. `send` and `receive` repeat calls until all
bytes have moved, or report how far they got.

* A send offers all bytes that are still unsent in each call, and flushes once when the last one has
  been taken, also when there was nothing to send.
* A receive asks for all bytes that are still missing in each call, and makes no call when none is.
* An interrupted read or write is repeated. An interrupted flush is a fault like any other.

## Main definitions

* `Outgoing` is a byte string on its way out: how many bytes have been taken, and the rest.
* `Incoming` is a byte string on its way in: how many bytes are missing, and those that have come.
* `Outgoing.transmit` and `Incoming.collect` are the two loops. They end because every call moves a
  byte, uses the patience of the stream up, or is the last.
-/

namespace RemoteRegisters

/-- A byte string of which the stream has taken a part. -/
structure Outgoing where
  sent : Nat
  rest : List UInt8
  deriving DecidableEq, Repr

namespace Outgoing

def ofBytes (bytes : List UInt8) : Outgoing :=
  ⟨0, bytes⟩

def total (o : Outgoing) : Nat :=
  o.sent + o.rest.length

def advance (o : Outgoing) (n : Nat) : Outgoing :=
  ⟨o.sent + n, o.rest.drop n⟩

/-- Offers the rest until the stream has taken all of it, then flushes. -/
def transmit {σ : Type} [ByteStream σ] (o : Outgoing) (stream : σ) :
    Except TransferError Unit × σ :=
  if o.rest = [] then
    match ByteStream.flush stream with
    | (.ok (), stream') => (.ok (), stream')
    | (.error e, stream') => (.error (.io e), stream')
  else
    match _ : ByteStream.write stream o.rest with
    | (.ok n, stream') =>
        if n = 0 then (.error (.shortWrite o.total o.sent), stream')
        else transmit (o.advance n) stream'
    | (.error e, stream') =>
        if e.kind = .interrupted then transmit o stream'
        else (.error (.io e), stream')
termination_by (o.rest.length, ByteStream.patience stream)
decreasing_by
  · have nonempty := List.length_pos_iff.mpr ‹¬o.rest = []›
    apply Prod.Lex.left
    simp only [advance, List.length_drop]
    omega
  · apply Prod.Lex.right
    exact ByteStream.patience_of_write ‹_› ‹e.kind = .interrupted›

end Outgoing

/-- A byte string of which a part has come. -/
structure Incoming where
  missing : Nat
  got : List UInt8
  deriving DecidableEq, Repr

namespace Incoming

def ofLength (n : Nat) : Incoming :=
  ⟨n, []⟩

def total (i : Incoming) : Nat :=
  i.got.length + i.missing

def absorb (i : Incoming) (bytes : List UInt8) : Incoming :=
  ⟨i.missing - bytes.length, i.got ++ bytes⟩

def collect {σ : Type} [ByteStream σ] (i : Incoming) (stream : σ) :
    Except TransferError (List UInt8) × σ :=
  if i.missing = 0 then (.ok i.got, stream)
  else
    match _ : ByteStream.read stream i.missing with
    | (.ok bytes, stream') =>
        if bytes = [] then (.error (.endOfStream i.total i.got.length), stream')
        else collect (i.absorb bytes) stream'
    | (.error e, stream') =>
        if e.kind = .interrupted then collect i stream'
        else (.error (.io e), stream')
termination_by (i.missing, ByteStream.patience stream)
decreasing_by
  · have nonempty := List.length_pos_iff.mpr ‹¬bytes = []›
    apply Prod.Lex.left
    simp only [absorb]
    omega
  · apply Prod.Lex.right
    exact ByteStream.patience_of_read ‹_› ‹e.kind = .interrupted›

end Incoming

def send {σ : Type} [ByteStream σ] (stream : σ) (bytes : List UInt8) :
    Except TransferError Unit × σ :=
  (Outgoing.ofBytes bytes).transmit stream

def receive {σ : Type} [ByteStream σ] (stream : σ) (n : Nat) :
    Except TransferError (List UInt8) × σ :=
  (Incoming.ofLength n).collect stream

/-! ### What a transfer does to the supply of a finite stream -/

section Supply

variable {σ : Type} [FiniteStream σ]

theorem Outgoing.supply_transmit_le (o : Outgoing) (stream : σ) :
    FiniteStream.supply (o.transmit stream).2 ≤ FiniteStream.supply stream := by
  fun_induction o.transmit stream with
  | case1 o stream _ stream' h => exact FiniteStream.supply_of_flush h
  | case2 o stream _ e stream' h => exact FiniteStream.supply_of_flush h
  | case3 o stream _ stream' h => exact FiniteStream.supply_of_write h
  | case4 o stream _ n stream' h _ ih => exact Nat.le_trans ih (FiniteStream.supply_of_write h)
  | case5 o stream _ e stream' h _ ih => exact Nat.le_trans ih (FiniteStream.supply_of_write h)
  | case6 o stream _ e stream' h => exact FiniteStream.supply_of_write h

theorem Incoming.supply_collect_le (i : Incoming) (stream : σ) :
    FiniteStream.supply (i.collect stream).2 ≤ FiniteStream.supply stream := by
  fun_induction i.collect stream with
  | case1 i stream => exact Nat.le_refl _
  | case2 i stream _ stream' h =>
    exact Nat.le_trans (Nat.le_add_right _ _) (FiniteStream.supply_of_read h)
  | case3 i stream _ bytes stream' h _ ih =>
    exact Nat.le_trans ih (Nat.le_trans (Nat.le_add_right _ _) (FiniteStream.supply_of_read h))
  | case4 i stream _ e stream' h _ ih =>
    exact Nat.le_trans ih (Nat.le_trans (Nat.le_add_right _ _) (FiniteStream.supply_of_read h))
  | case5 i stream _ e stream' h =>
    exact Nat.le_trans (Nat.le_add_right _ _) (FiniteStream.supply_of_read h)

/-- A completed receive has taken the missing bytes out of the supply. -/
theorem Incoming.supply_of_collect {i : Incoming} {stream stream' : σ} {bytes : List UInt8}
    (h : i.collect stream = (.ok bytes, stream')) :
    FiniteStream.supply stream' + i.missing ≤ FiniteStream.supply stream := by
  fun_induction i.collect stream with
  | case1 i stream done =>
    cases h
    omega
  | case2 => cases h
  | case3 i stream _ got later hr _ ih =>
    have rest := ih h
    have taken := FiniteStream.supply_of_read hr
    have bounded := ByteStream.length_of_read hr
    simp only [absorb, deliveredBytes] at rest taken
    omega
  | case4 i stream _ e later hr _ ih =>
    have rest := ih h
    have taken := FiniteStream.supply_of_read hr
    omega
  | case5 => cases h

end Supply

end RemoteRegisters
