import RemoteRegisters.Stream.Script
import RemoteRegisters.Stream.Transfer

/-!
# What transfers take from a script and leave on it

Whatever the steps of a script do, a receive takes nothing from the sending side,
and of the bytes of a send the script has a prefix in the end, which is all of
them if the send succeeds. A send in turn takes nothing from the data that is
still to be delivered, and a receive takes what it has got and no byte more.

## Main definitions

- `Incoming.Ends` — what a receive comes to, and with which bytes
-/

namespace RemoteRegisters

namespace Script

/-- A read touches nothing but the read steps. -/
theorem frame_of_read {s s' : Script} {n : Nat} {r : Except IoError (List UInt8)}
    (h : s.read n = (r, s')) :
    s'.writes = s.writes ∧ s'.flushes = s.flushes ∧ s'.sent = s.sent := by
  unfold read at h
  split at h
  · cases h
    exact ⟨rfl, rfl, rfl⟩
  · split at h <;> cases h <;> exact ⟨rfl, rfl, rfl⟩
  · cases h
    exact ⟨rfl, rfl, rfl⟩
  · cases h
    exact ⟨rfl, rfl, rfl⟩

theorem frame_of_write {s s' : Script} {bytes : List UInt8} {r : Except IoError Nat}
    (h : s.write bytes = (r, s')) :
    s'.reads = s.reads ∧ s'.flushes = s.flushes ∧ s'.writes = s.writes.tail := by
  unfold write at h
  split at h <;> rename_i hwrites <;> cases h <;> rw [hwrites] <;> exact ⟨rfl, rfl, rfl⟩

theorem sent_of_write_error {s s' : Script} {bytes : List UInt8} {e : IoError}
    (h : s.write bytes = (.error e, s')) : s'.sent = s.sent := by
  unfold write at h
  split at h <;> cases h
  rfl

theorem frame_of_flush {s s' : Script} {r : Except IoError Unit} (h : s.flush = (r, s')) :
    s'.reads = s.reads ∧ s'.writes = s.writes ∧ s'.sent = s.sent ∧ s'.flushes = s.flushes.tail := by
  unfold flush at h
  split at h <;> rename_i hflushes <;> cases h <;> rw [hflushes] <;> exact ⟨rfl, rfl, rfl, rfl⟩

end Script

/-- A receive touches nothing but the read steps. -/
theorem Incoming.frame_collect (i : Incoming) (s : Script) :
    (i.collect s).2.writes = s.writes ∧ (i.collect s).2.flushes = s.flushes ∧
      (i.collect s).2.sent = s.sent := by
  fun_induction i.collect s with
  | case1 i s => exact ⟨rfl, rfl, rfl⟩
  | case2 i s _ s' hread => exact Script.frame_of_read hread
  | case3 i s _ bytes s' hread _ ih =>
    obtain ⟨hwrites, hflushes, hsent⟩ := Script.frame_of_read hread
    rwa [hwrites, hflushes, hsent] at ih
  | case4 i s _ e s' hread _ ih =>
    obtain ⟨hwrites, hflushes, hsent⟩ := Script.frame_of_read hread
    rwa [hwrites, hflushes, hsent] at ih
  | case5 i s _ e s' hread => exact Script.frame_of_read hread

theorem Incoming.sent_collect (i : Incoming) (s : Script) : (i.collect s).2.sent = s.sent :=
  (i.frame_collect s).2.2

/-- A send leaves a prefix of its bytes on the script, and all of them if it succeeds. -/
theorem Outgoing.sent_transmit {o : Outgoing} {s s' : Script} {r : Except TransferError Unit}
    (h : o.transmit s = (r, s')) :
    ∃ part, part <+: o.rest ∧ s'.sent = s.sent ++ part ∧ (r = .ok () → part = o.rest) := by
  fun_induction o.transmit s with
  | case1 o s hdone stream hflush =>
    cases h
    refine ⟨[], List.nil_prefix, ?_, fun _ => hdone.symm⟩
    rw [(Script.frame_of_flush hflush).2.2.1, List.append_nil]
  | case2 o s hdone e stream hflush =>
    cases h
    refine ⟨[], List.nil_prefix, ?_, fun _ => hdone.symm⟩
    rw [(Script.frame_of_flush hflush).2.2.1, List.append_nil]
  | case3 o s _ stream hwrite =>
    cases h
    refine ⟨[], List.nil_prefix, ?_, fun hok => by cases hok⟩
    rw [Script.sent_of_write hwrite, List.take_zero]
  | case4 o s _ n stream hwrite _ ih =>
    obtain ⟨part, ⟨tail, htail⟩, hsent, hall⟩ := ih h
    -- what this call took stands before what the later calls take
    have hrest : o.rest.take n ++ (part ++ tail) = o.rest := by
      rw [htail]
      exact List.take_append_drop n o.rest
    refine ⟨o.rest.take n ++ part, ⟨tail, by rwa [List.append_assoc]⟩, ?_, fun hok => ?_⟩
    · rw [hsent, Script.sent_of_write hwrite, List.append_assoc]
    · rw [hall hok]
      exact List.take_append_drop n o.rest
  | case5 o s _ e stream hwrite _ ih =>
    rw [← Script.sent_of_write_error hwrite]
    exact ih h
  | case6 o s _ e stream hwrite =>
    cases h
    refine ⟨[], List.nil_prefix, ?_, fun hok => by cases hok⟩
    rw [Script.sent_of_write_error hwrite, List.append_nil]

/-- A send leaves the read steps alone. -/
theorem Outgoing.reads_transmit (o : Outgoing) (s : Script) : (o.transmit s).2.reads = s.reads := by
  fun_induction o.transmit s with
  | case1 o s _ s' hflush => exact (Script.frame_of_flush hflush).1
  | case2 o s _ e s' hflush => exact (Script.frame_of_flush hflush).1
  | case3 o s _ s' hwrite => exact (Script.frame_of_write hwrite).1
  | case4 o s _ n s' hwrite _ ih => exact ih.trans (Script.frame_of_write hwrite).1
  | case5 o s _ e s' hwrite _ ih => exact ih.trans (Script.frame_of_write hwrite).1
  | case6 o s _ e s' hwrite => exact (Script.frame_of_write hwrite).1

theorem Outgoing.undelivered_transmit (o : Outgoing) (s : Script) :
    (o.transmit s).2.undelivered = s.undelivered :=
  congrArg (List.flatMap ReadStep.bytes) (o.reads_transmit s)

theorem undelivered_of_send {s s' : Script} {bytes : List UInt8} {r : Except TransferError Unit}
    (h : send s bytes = (r, s')) : s'.undelivered = s.undelivered := by
  have hkept := (Outgoing.ofBytes bytes).undelivered_transmit s
  rwa [← send, h] at hkept

/-- What a receive comes to that has got some more bytes. -/
inductive Incoming.Ends (i : Incoming) (got : List UInt8) :
    Except TransferError (List UInt8) → Prop where
  | whole : got.length = i.missing → Ends i got (.ok (i.got ++ got))
  /-- The stream has ended. -/
  | cut :
      got.length < i.missing →
        Ends i got (.error (.endOfStream i.total (i.got.length + got.length)))
  | failed {cause : IoError} :
      got.length < i.missing → cause.kind ≠ .interrupted → Ends i got (.error (.io cause))

/-- A receive that goes on behind some bytes comes to what it would have come to with them. -/
theorem Incoming.Ends.of_absorb {i : Incoming} {bytes got : List UInt8}
    {r : Except TransferError (List UInt8)} (hlen : bytes.length ≤ i.missing)
    (h : (i.absorb bytes).Ends got r) : i.Ends (bytes ++ got) r := by
  have hgot : (i.absorb bytes).got ++ got = i.got ++ (bytes ++ got) := List.append_assoc ..
  have hcount : (i.absorb bytes).got.length + got.length = i.got.length + (bytes ++ got).length := by
    rw [absorb, List.length_append, List.length_append, Nat.add_assoc]
  have htotal : (i.absorb bytes).total = i.total := by
    simp only [total, absorb, List.length_append]
    omega
  have hmissing : (i.absorb bytes).missing = i.missing - bytes.length := rfl
  have hboth : (bytes ++ got).length = bytes.length + got.length := List.length_append
  cases h with
  | whole hlen' =>
    rw [hgot]
    exact .whole (by omega)
  | cut hlen' =>
    rw [htotal, hcount]
    exact .cut (by omega)
  | failed hlen' hkind => exact .failed (by omega) hkind

/-- The bytes that a receive has got are those that are no longer to be delivered. -/
theorem Incoming.ends_collect {i : Incoming} {s s' : Script}
    {r : Except TransferError (List UInt8)} (h : i.collect s = (r, s')) :
    ∃ got, s.undelivered = got ++ s'.undelivered ∧ i.Ends got r := by
  fun_induction i.collect s with
  | case1 i s hdone =>
    cases h
    have hends : i.Ends [] (.ok (i.got ++ [])) := .whole hdone.symm
    rw [List.append_nil] at hends
    exact ⟨[], rfl, hends⟩
  | case2 i s hmissing stream hread =>
    cases h
    refine ⟨[], Script.undelivered_of_read hread, ?_⟩
    exact .cut (Nat.pos_of_ne_zero hmissing)
  | case3 i s _ bytes stream hread _ ih =>
    obtain ⟨got, hrest, hends⟩ := ih h
    refine ⟨bytes ++ got, ?_, hends.of_absorb (ByteStream.length_of_read hread)⟩
    rw [Script.undelivered_of_read hread, hrest, List.append_assoc]
  | case4 i s _ e stream hread _ ih =>
    rw [← Script.undelivered_of_read_error hread]
    exact ih h
  | case5 i s hmissing e stream hread hkind =>
    cases h
    refine ⟨[], (Script.undelivered_of_read_error hread).symm, ?_⟩
    exact .failed (Nat.pos_of_ne_zero hmissing) hkind

end RemoteRegisters
