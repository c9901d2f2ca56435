import RemoteRegisters.Proofs.Asynchrony.Suspended

/-!
# Programs between two queues

Where a program reads from one queue of bytes and writes to another, a call moves
bytes from the program to the one queue or from the other queue to the program,
and it may complete the transfer. `Suspended.Advances.effect` says so once, for
every dialogue. Such a program is stuck only if it waits for bytes and its queue
is empty (`Suspended.Proper.advances`).

## Main definitions

- `QueueEnd` — the stream between two queues
- `Suspended.Proper` — the transfer that is under way is the one that is asked for
- `Suspended.Effect` — what a call does between two queues
-/

namespace RemoteRegisters

/-- The stream between two queues of bytes. A call moves at most `limit` bytes. -/
structure QueueEnd where
  inbound : List UInt8
  outbound : List UInt8
  limit : Nat

instance : ByteStream QueueEnd where
  read q n :=
    (.ok (q.inbound.take (min q.limit n)), { q with inbound := q.inbound.drop (min q.limit n) })
  write q bytes :=
    (.ok (min q.limit bytes.length),
      { q with outbound := q.outbound ++ bytes.take (min q.limit bytes.length) })
  flush q := (.ok (), q)
  patience _ := 0
  length_of_read {s s' n bytes} h := by
    cases h
    rw [List.length_take]
    omega
  le_of_write {s s' bytes n} h := by
    cases h
    exact Nat.min_le_right _ _
  patience_of_read {s s' n e} h _ := by cases h
  patience_of_write {s s' bytes e} h _ := by cases h

namespace Suspended

open Dialogue

variable {κ : Type} [Dialogue κ]

/-- The transfer is the one that the dialogue asks for, and it is not completed. -/
inductive Proper (p : Suspended κ) : Prop where
  | rest : turn p.control = .rest → p.transfer = .rest → Proper p
  | sending {bytes : List UInt8} {o : Outgoing} :
      turn p.control = .send bytes → p.transfer = .sending o → Proper p
  | receiving {n : Nat} {i : Incoming} :
      turn p.control = .receive n → p.transfer = .receiving i → 0 < i.missing → i.total = n →
        Proper p

theorem proper_enter (c : κ) : (enter c).Proper := by
  cases hturn : turn c with
  | rest => exact .rest hturn (congrArg Turn.transfer hturn)
  | send bytes => exact .sending hturn (congrArg Turn.transfer hturn)
  | receive n =>
    exact .receiving hturn (congrArg Turn.transfer hturn) (receive_pos hturn) (Nat.zero_add n)

namespace Proper

variable {p : Suspended κ} {c : κ}

theorem turn_of_sending {o : Outgoing} (h : Proper (Suspended.mk c (.sending o))) :
    ∃ bytes, turn c = .send bytes := by
  cases h with
  | rest _ htransfer => cases htransfer
  | sending hturn _ => exact ⟨_, hturn⟩
  | receiving _ htransfer => cases htransfer

theorem turn_of_receiving {i : Incoming} (h : Proper (Suspended.mk c (.receiving i))) :
    turn c = .receive i.total := by
  cases h with
  | rest _ htransfer => cases htransfer
  | sending _ htransfer => cases htransfer
  | receiving hturn htransfer _ htotal =>
    cases htransfer
    rw [hturn, htotal]

theorem transfer_of_rest (h : p.Proper) (hturn : turn p.control = .rest) : p.transfer = .rest := by
  cases h with
  | rest _ htransfer => exact htransfer
  | sending hsend _ => cases hturn.symm.trans hsend
  | receiving hreceive _ => cases hturn.symm.trans hreceive

/-- A program that receives has nothing to send, and some of the bytes have yet to come. -/
theorem of_receive (h : p.Proper) {n : Nat} (hturn : turn p.control = .receive n) :
    p.transfer.unsent = [] ∧ p.transfer.got.length < n := by
  cases h with
  | rest hrest _ => cases hturn.symm.trans hrest
  | sending hsend _ => cases hturn.symm.trans hsend
  | receiving hreceive htransfer hmissing htotal =>
    rw [← Turn.receive.inj (hreceive.symm.trans hturn), ← htotal, htransfer]
    exact ⟨rfl, Nat.lt_add_of_pos_right hmissing⟩

end Proper

/-- What a call does between an inbound and an outbound queue: it moves bytes from the program to the
one queue or from the other queue to the program, and perhaps completes the transfer. -/
inductive Effect (p : Suspended κ) (inbound outbound : List UInt8) :
    Suspended κ → List UInt8 → List UInt8 → Prop where
  | underway {t : Transfer} {inbound' outbound' : List UInt8} :
      t.got ++ inbound' = p.transfer.got ++ inbound →
        outbound' ++ t.unsent = outbound ++ p.transfer.unsent →
        Effect p inbound outbound ⟨p.control, t⟩ inbound' outbound'
  | sent {bytes : List UInt8} :
      turn p.control = .send bytes → p.transfer.got = [] → p.transfer.unsent = [] →
        Effect p inbound outbound (enter (proceed p.control [])) inbound outbound
  | received {bytes inbound' : List UInt8} :
      turn p.control = .receive bytes.length → p.transfer.unsent = [] →
        p.transfer.got ++ inbound = bytes ++ inbound' →
        Effect p inbound outbound (enter (proceed p.control bytes)) inbound' outbound

variable {p p' : Suspended κ} {inbound inbound' outbound outbound' : List UInt8} {limit limit' : Nat}

theorem Advances.effect (hproper : p.Proper)
    (h : p.Advances (QueueEnd.mk inbound outbound limit) p'
      (QueueEnd.mk inbound' outbound' limit')) :
    p'.Proper ∧ p.Effect inbound outbound p' inbound' outbound' := by
  cases h with
  | wrote hrest hwrite hn =>
    cases hwrite
    obtain ⟨_, hturn⟩ := hproper.turn_of_sending
    refine ⟨.sending hturn rfl, .underway rfl ?_⟩
    simp only [Transfer.unsent, Outgoing.advance, List.append_assoc, List.take_append_drop]
  | flushed hdone hflush =>
    cases hflush
    obtain ⟨_, hturn⟩ := hproper.turn_of_sending
    exact ⟨proper_enter _, .sent hturn rfl hdone⟩
  | @got c i bytes _ _ hread hbytes hlen =>
    cases hread
    refine ⟨.receiving hproper.turn_of_receiving rfl (Nat.sub_pos_of_lt hlen) ?_,
      .underway ?_ rfl⟩
    · dsimp only at hlen
      simp only [Incoming.total, Incoming.absorb, List.length_append]
      omega
    · simp only [Transfer.got, Incoming.absorb, List.append_assoc, List.take_append_drop]
  | @completed c i bytes _ _ hread hbytes hlen =>
    cases hread
    refine ⟨proper_enter _, .received ?_ rfl ?_⟩
    · rw [hproper.turn_of_receiving, List.length_append, hlen]
      rfl
    · simp only [Transfer.got, List.append_assoc, List.take_append_drop]

/-- A program can make a call unless it is at rest or waits for bytes from an empty queue. -/
theorem Proper.advances (h : p.Proper) (hturn : turn p.control ≠ .rest) (outbound : List UInt8)
    (hinbound : (∃ n, turn p.control = .receive n) → inbound ≠ []) :
    ∃ p' inbound' outbound',
      p.Advances (QueueEnd.mk inbound outbound 1) p' (QueueEnd.mk inbound' outbound' 1) := by
  obtain ⟨c, transfer⟩ := p
  cases h with
  | rest hrest => exact absurd hrest hturn
  | @sending bytes o _ htransfer =>
    cases htransfer
    by_cases hdone : o.rest = []
    · exact ⟨_, _, _, .flushed hdone rfl⟩
    · have hpos := List.length_pos_iff.mpr hdone
      have hmoves : min 1 o.rest.length ≠ 0 := by omega
      exact ⟨_, _, _, .wrote hdone rfl hmoves⟩
  | @receiving n i hreceive htransfer hmissing _ =>
    cases htransfer
    have hsome := hinbound ⟨n, hreceive⟩
    have hone : (inbound.take (min 1 i.missing)).length = 1 := by
      have hpos := List.length_pos_iff.mpr hsome
      rw [List.length_take]
      omega
    have hbytes : inbound.take (min 1 i.missing) ≠ [] := fun hnil => by
      rw [hnil] at hone
      cases hone
    by_cases hlast : i.missing = 1
    · exact ⟨_, _, _, .completed rfl hbytes (hone.trans hlast.symm)⟩
    · have hless : (inbound.take (min 1 i.missing)).length < i.missing := by omega
      exact ⟨_, _, _, .got rfl hbytes hless⟩

end Suspended

end RemoteRegisters
