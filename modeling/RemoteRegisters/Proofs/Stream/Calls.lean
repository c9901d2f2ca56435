import RemoteRegisters.Stream.Transfer

/-!
# The calls that a transfer makes

`Recorded` keeps a list of all calls that are made on a stream, so that it can be
said of a transfer that it makes no call, or which ones. Recording changes
nothing else: a transfer over a recorded stream does what it does over the
stream itself (`Outgoing.transmit_recorded`, `Incoming.collect_recorded`).

A transmission offers all of its bytes in its first call, and in later ones no
more than what is left of them (`Outgoing.exists_first_offer`).

## Main definitions

- `Recorded` — a stream together with the calls that were made on it
- `Recorded.Offers` — between two states of a stream nothing was offered but ends of a frame
-/

namespace RemoteRegisters

/-! ### A transfer, one call at a time -/

section Steps

variable {σ : Type} [ByteStream σ] {stream stream' : σ}

theorem Outgoing.transmit_of_flush {o : Outgoing} {r : Except IoError Unit} (hdone : o.rest = [])
    (h : ByteStream.flush stream = (r, stream')) :
    o.transmit stream = (r.mapError .io, stream') := by
  rw [transmit, if_pos hdone, h]
  cases r <;> rfl

theorem Outgoing.transmit_of_write {o : Outgoing} {n : Nat} (hrest : o.rest ≠ [])
    (h : ByteStream.write stream o.rest = (.ok n, stream')) :
    o.transmit stream =
      if n = 0 then (.error (.shortWrite o.total o.sent), stream')
      else (o.advance n).transmit stream' := by
  rw [transmit, if_neg hrest]
  split <;> rename_i heq <;> cases h.symm.trans heq
  rfl

theorem Outgoing.transmit_of_write_error {o : Outgoing} {e : IoError} (hrest : o.rest ≠ [])
    (h : ByteStream.write stream o.rest = (.error e, stream')) :
    o.transmit stream =
      if e.kind = .interrupted then o.transmit stream' else (.error (.io e), stream') := by
  rw [transmit, if_neg hrest]
  split <;> rename_i heq <;> cases h.symm.trans heq
  rfl

theorem Incoming.collect_of_done {i : Incoming} (hdone : i.missing = 0) :
    i.collect stream = (.ok i.got, stream) := by
  rw [collect, if_pos hdone]

theorem Incoming.collect_of_read {i : Incoming} {bytes : List UInt8} (hmissing : i.missing ≠ 0)
    (h : ByteStream.read stream i.missing = (.ok bytes, stream')) :
    i.collect stream =
      if bytes = [] then (.error (.endOfStream i.total i.got.length), stream')
      else (i.absorb bytes).collect stream' := by
  rw [collect, if_neg hmissing]
  split <;> rename_i heq <;> cases h.symm.trans heq
  rfl

theorem Incoming.collect_of_read_error {i : Incoming} {e : IoError} (hmissing : i.missing ≠ 0)
    (h : ByteStream.read stream i.missing = (.error e, stream')) :
    i.collect stream =
      if e.kind = .interrupted then i.collect stream' else (.error (.io e), stream') := by
  rw [collect, if_neg hmissing]
  split <;> rename_i heq <;> cases h.symm.trans heq
  rfl

end Steps

/-! ### Recorded streams -/

inductive StreamCall where
  | read (n : Nat)
  | write (bytes : List UInt8)
  | flush
  deriving DecidableEq, Repr

/-- A stream together with the calls that were made on it, oldest first. -/
structure Recorded (σ : Type) where
  stream : σ
  calls : List StreamCall := []

namespace Recorded

variable {σ : Type}

def called {α : Type} (s : Recorded σ) (call : StreamCall) (result : α × σ) : α × Recorded σ :=
  (result.1, ⟨result.2, s.calls ++ [call]⟩)

theorem of_called {α : Type} {s s' : Recorded σ} {call : StreamCall} {result : α × σ} {r : α}
    (h : s.called call result = (r, s')) : result = (r, s'.stream) := by
  cases h
  rfl

theorem calls_of_called {α : Type} {s s' : Recorded σ} {call : StreamCall} {result : α × σ} {r : α}
    (h : s.called call result = (r, s')) : s'.calls = s.calls ++ [call] := by
  cases h
  rfl

instance [ByteStream σ] : ByteStream (Recorded σ) where
  read s n := s.called (.read n) (ByteStream.read s.stream n)
  write s bytes := s.called (.write bytes) (ByteStream.write s.stream bytes)
  flush s := s.called .flush (ByteStream.flush s.stream)
  patience s := ByteStream.patience s.stream
  length_of_read h := ByteStream.length_of_read (of_called h)
  le_of_write h := ByteStream.le_of_write (of_called h)
  patience_of_read h := ByteStream.patience_of_read (of_called h)
  patience_of_write h := ByteStream.patience_of_write (of_called h)

instance [FiniteStream σ] : FiniteStream (Recorded σ) where
  supply s := FiniteStream.supply s.stream
  supply_of_read h := FiniteStream.supply_of_read (of_called h)
  supply_of_write h := FiniteStream.supply_of_write (of_called h)
  supply_of_flush h := FiniteStream.supply_of_flush (of_called h)

end Recorded

section Recording

variable {σ : Type} [ByteStream σ]

theorem Outgoing.transmit_recorded (o : Outgoing) (s : Recorded σ) :
    o.transmit s.stream = ((o.transmit s).1, (o.transmit s).2.stream) := by
  fun_induction o.transmit s with
  | case1 o s hdone s' hflush => rw [transmit_of_flush hdone (Recorded.of_called hflush)]; rfl
  | case2 o s hdone e s' hflush => rw [transmit_of_flush hdone (Recorded.of_called hflush)]; rfl
  | case3 o s hrest s' hwrite =>
    rw [transmit_of_write hrest (Recorded.of_called hwrite), if_pos rfl]
  | case4 o s hrest n s' hwrite hn ih =>
    rw [transmit_of_write hrest (Recorded.of_called hwrite), if_neg hn, ih]
  | case5 o s hrest e s' hwrite hkind ih =>
    rw [transmit_of_write_error hrest (Recorded.of_called hwrite), if_pos hkind, ih]
  | case6 o s hrest e s' hwrite hkind =>
    rw [transmit_of_write_error hrest (Recorded.of_called hwrite), if_neg hkind]

theorem Incoming.collect_recorded (i : Incoming) (s : Recorded σ) :
    i.collect s.stream = ((i.collect s).1, (i.collect s).2.stream) := by
  fun_induction i.collect s with
  | case1 i s hdone => rw [collect_of_done hdone]
  | case2 i s hmissing s' hread =>
    rw [collect_of_read hmissing (Recorded.of_called hread), if_pos rfl]
  | case3 i s hmissing bytes s' hread hbytes ih =>
    rw [collect_of_read hmissing (Recorded.of_called hread), if_neg hbytes, ih]
  | case4 i s hmissing e s' hread hkind ih =>
    rw [collect_of_read_error hmissing (Recorded.of_called hread), if_pos hkind, ih]
  | case5 i s hmissing e s' hread hkind =>
    rw [collect_of_read_error hmissing (Recorded.of_called hread), if_neg hkind]

theorem send_of_recorded {s s' : Recorded σ} {bytes : List UInt8} {r : Except TransferError Unit}
    (h : send s bytes = (r, s')) : send s.stream bytes = (r, s'.stream) := by
  have hplain := (Outgoing.ofBytes bytes).transmit_recorded s
  rw [send] at h
  rwa [h] at hplain

theorem receive_of_recorded {s s' : Recorded σ} {n : Nat}
    {r : Except TransferError (List UInt8)} (h : receive s n = (r, s')) :
    receive s.stream n = (r, s'.stream) := by
  have hplain := (Incoming.ofLength n).collect_recorded s
  rw [receive] at h
  rwa [h] at hplain

end Recording

/-! ### What is offered to a recorded stream -/

section Offering

variable {σ : Type} {s s' s'' : Recorded σ} {frame : List UInt8}

/-- Of all that was offered to a stream between two of its states, each was an end of a frame. -/
def Recorded.Offers (frame : List UInt8) (s s' : Recorded σ) : Prop :=
  ∃ made, s'.calls = s.calls ++ made ∧ ∀ bytes, .write bytes ∈ made → bytes <:+ frame

namespace Recorded.Offers

theorem refl (frame : List UInt8) (s : Recorded σ) : Offers frame s s :=
  ⟨[], (List.append_nil _).symm, fun _ hmem => (List.not_mem_nil hmem).elim⟩

theorem trans (h : Offers frame s s') (h' : Offers frame s' s'') : Offers frame s s'' := by
  obtain ⟨made, hcalls, hends⟩ := h
  obtain ⟨made', hcalls', hends'⟩ := h'
  refine ⟨made ++ made', by rw [hcalls', hcalls, List.append_assoc], fun bytes hmem => ?_⟩
  obtain hmem | hmem := List.mem_append.mp hmem
  · exact hends bytes hmem
  · exact hends' bytes hmem

theorem mono {rest : List UInt8} (h : Offers rest s s') (hrest : rest <:+ frame) :
    Offers frame s s' := by
  obtain ⟨made, hcalls, hends⟩ := h
  exact ⟨made, hcalls, fun bytes hmem => (hends bytes hmem).trans hrest⟩

theorem of_called {α : Type} {call : StreamCall} {result : α × σ} {r : α}
    (h : s.called call result = (r, s')) (hcall : ∀ bytes, call = .write bytes → bytes <:+ frame) :
    Offers frame s s' := by
  refine ⟨[call], calls_of_called h, fun bytes hmem => hcall bytes ?_⟩
  exact (List.mem_singleton.mp hmem).symm

end Recorded.Offers

variable [ByteStream σ]

/-- A transmission offers what is left of its bytes, and nothing else. -/
theorem Outgoing.offers_transmit (o : Outgoing) (s : Recorded σ) :
    Recorded.Offers o.rest s (o.transmit s).2 := by
  have hwritten {o : Outgoing} {s s' : Recorded σ} {r : Except IoError Nat}
      (hwrite : ByteStream.write s o.rest = (r, s')) : Recorded.Offers o.rest s s' := by
    refine .of_called hwrite fun bytes hbytes => ?_
    cases hbytes
    exact List.suffix_refl _
  fun_induction o.transmit s with
  | case1 o s _ s' hflush => exact .of_called hflush fun _ hcall => by cases hcall
  | case2 o s _ e s' hflush => exact .of_called hflush fun _ hcall => by cases hcall
  | case3 o s _ s' hwrite => exact hwritten hwrite
  | case4 o s _ n s' hwrite _ ih => exact (hwritten hwrite).trans (ih.mono (List.drop_suffix n _))
  | case5 o s _ e s' hwrite _ ih => exact (hwritten hwrite).trans ih
  | case6 o s _ e s' hwrite => exact hwritten hwrite

/-- The first call of a transmission offers all of its bytes. -/
theorem Outgoing.exists_first_offer {o : Outgoing} (hrest : o.rest ≠ []) (s : Recorded σ) :
    ∃ s' : Recorded σ, s'.calls = s.calls ++ [.write o.rest] ∧
      Recorded.Offers o.rest s' (o.transmit s).2 := by
  cases hwrite : ByteStream.write s o.rest with
  | mk r s' =>
    refine ⟨s', Recorded.calls_of_called hwrite, ?_⟩
    cases r with
    | ok n =>
      rw [transmit_of_write hrest hwrite]
      split
      · exact .refl _ _
      · exact ((o.advance n).offers_transmit s').mono (List.drop_suffix n _)
    | error e =>
      rw [transmit_of_write_error hrest hwrite]
      split
      · exact o.offers_transmit s'
      · exact .refl _ _

/-- A receiver offers nothing. -/
theorem Incoming.offers_collect (frame : List UInt8) (i : Incoming) (s : Recorded σ) :
    Recorded.Offers frame s (i.collect s).2 := by
  have hread {s s' : Recorded σ} {n : Nat} {r : Except IoError (List UInt8)}
      (hread : ByteStream.read s n = (r, s')) : Recorded.Offers frame s s' :=
    .of_called hread fun _ hcall => by cases hcall
  fun_induction i.collect s with
  | case1 i s => exact .refl _ _
  | case2 i s _ s' h => exact hread h
  | case3 i s _ bytes s' h _ ih => exact (hread h).trans ih
  | case4 i s _ e s' h _ ih => exact (hread h).trans ih
  | case5 i s _ e s' h => exact hread h

end Offering

end RemoteRegisters
