import RemoteRegisters.Proofs.Stream.Accounting
import RemoteRegisters.Proofs.Stream.Calls

/-!
# The exact outcome of a transfer

A transfer goes on after partial progress and after an interruption, and stops at
the first call that moves nothing or fails. Whatever the steps of a script do, the
result of the transfer says how far it has come: a send is complete with one flush
behind its last byte, or has left exactly so many bytes on the script and has not
flushed (`Outgoing.outcome_transmit`); a receive has taken exactly the bytes that
it reports (`Incoming.ends_collect`).

Every call moves a byte, uses up a step of the script, or is the last one. That
bounds the number of calls (`Outgoing.length_calls_transmit_le`,
`Incoming.length_calls_collect_le`).

## Main definitions

- `StreamCall.FlushesLast` — calls that write, and then one that flushes
- `Outgoing.Outcome` — what a transmission comes to, and with which calls
-/

namespace RemoteRegisters

/-- The calls write, and the last one flushes. -/
def StreamCall.FlushesLast (made : List StreamCall) : Prop :=
  ∃ offers : List (List UInt8), made = offers.map .write ++ [.flush]

/-- A transmission with these calls has led from one script to another. -/
inductive Outgoing.Outcome (o : Outgoing) (s s' : Script) (made : List StreamCall) :
    Except TransferError Unit → Prop where
  | complete :
      StreamCall.FlushesLast made → s'.sent = s.sent ++ o.rest → Outcome o s s' made (.ok ())
  /-- A write has taken nothing. -/
  | short {taken : Nat} :
      .flush ∉ made → taken < o.rest.length → s'.sent = s.sent ++ o.rest.take taken →
        Outcome o s s' made (.error (.shortWrite o.total (o.sent + taken)))
  | unwritten {taken : Nat} {e : IoError} :
      .flush ∉ made → taken < o.rest.length → s'.sent = s.sent ++ o.rest.take taken →
        e.kind ≠ .interrupted → .error e ∈ s.writes → Outcome o s s' made (.error (.io e))
  | unflushed {e : IoError} :
      StreamCall.FlushesLast made → s'.sent = s.sent ++ o.rest →
        s.flushes.head? = some (.error e) → Outcome o s s' made (.error (.io e))

namespace Script

variable {s s' : Script}

theorem length_writes_of_write_error {bytes : List UInt8} {e : IoError}
    (h : s.write bytes = (.error e, s')) : s'.writes.length + 1 = s.writes.length := by
  unfold write at h
  split at h <;> rename_i hwrites <;> cases h
  rw [hwrites]
  rfl

theorem mem_writes_of_write_error {bytes : List UInt8} {e : IoError}
    (h : s.write bytes = (.error e, s')) : .error e ∈ s.writes := by
  unfold write at h
  split at h <;> rename_i hwrites <;> cases h
  rw [hwrites]
  exact List.mem_cons_self

theorem head?_flushes_of_flush_error {e : IoError} (h : s.flush = (.error e, s')) :
    s.flushes.head? = some (.error e) := by
  unfold flush at h
  split at h <;> rename_i hflushes <;> cases h
  rw [hflushes]
  rfl

/-- A read may leave the end of its step, but adds no step. -/
theorem length_reads_of_read_le {n : Nat} {r : Except IoError (List UInt8)}
    (h : s.read n = (r, s')) : s'.reads.length ≤ s.reads.length := by
  unfold read at h
  split at h
  · cases h
    exact Nat.le_refl _
  · rename_i hreads
    split at h <;> cases h <;> simp [hreads]
  · rename_i hreads
    cases h
    simp [hreads]
  · rename_i hreads
    cases h
    simp [hreads]

theorem length_reads_of_read_error {n : Nat} {e : IoError} (h : s.read n = (.error e, s')) :
    s'.reads.length + 1 = s.reads.length := by
  unfold read at h
  split at h
  · cases h
  · split at h <;> cases h
  · rename_i hreads
    cases h
    rw [hreads]
    rfl
  · cases h

theorem mem_reads_of_read_error {n : Nat} {e : IoError} (h : s.read n = (.error e, s')) :
    .error e ∈ s.reads := by
  unfold read at h
  split at h
  · cases h
  · split at h <;> cases h
  · rename_i hreads
    cases h
    rw [hreads]
    exact List.mem_cons_self
  · cases h

/-- The faults that are still to come behind a read were to come before it. -/
theorem mem_reads_of_mem_read {n : Nat} {r : Except IoError (List UInt8)} {e : IoError}
    (h : s.read n = (r, s')) (hmem : .error e ∈ s'.reads) : .error e ∈ s.reads := by
  unfold read at h
  split at h
  · cases h
    exact hmem
  · rename_i hreads
    rw [hreads]
    split at h <;> cases h
    · exact List.mem_cons_of_mem _ hmem
    · obtain hnot | hlater := List.mem_cons.mp hmem
      · cases hnot
      · exact List.mem_cons_of_mem _ hlater
  · rename_i hreads
    cases h
    rw [hreads]
    exact List.mem_cons_of_mem _ hmem
  · rename_i hreads
    cases h
    rw [hreads]
    exact List.mem_cons_of_mem _ hmem

end Script

/-! ### Sending -/

theorem StreamCall.FlushesLast.cons {made : List StreamCall} (h : FlushesLast made)
    (bytes : List UInt8) : FlushesLast (.write bytes :: made) := by
  obtain ⟨offers, rfl⟩ := h
  exact ⟨bytes :: offers, rfl⟩

/-- What a transmission comes to behind a write that has taken some bytes, or none because it was
interrupted. -/
theorem Outgoing.Outcome.of_advance {o : Outgoing} {s s₁ s' : Script} {made : List StreamCall}
    {r : Except TransferError Unit} {n : Nat} (hn : n ≤ o.rest.length)
    (hsent : s₁.sent = s.sent ++ o.rest.take n) (hflushes : s₁.flushes = s.flushes)
    (hwrites : s₁.writes = s.writes.tail) (h : (o.advance n).Outcome s₁ s' made r) :
    o.Outcome s s' (.write o.rest :: made) r := by
  have htotal : (o.advance n).total = o.total := by
    simp only [total, advance, List.length_drop]
    omega
  have hall : s₁.sent ++ (o.advance n).rest = s.sent ++ o.rest := by
    rw [hsent, List.append_assoc]
    exact congrArg (s.sent ++ ·) (List.take_append_drop n o.rest)
  have hpart (taken : Nat) : s₁.sent ++ (o.advance n).rest.take taken =
      s.sent ++ o.rest.take (n + taken) := by
    rw [hsent, List.append_assoc, List.take_add]
    rfl
  have hless {taken : Nat} (htaken : taken < (o.advance n).rest.length) :
      n + taken < o.rest.length := by
    simp only [advance, List.length_drop] at htaken
    omega
  have hquiet (hnot : .flush ∉ made) : StreamCall.flush ∉ StreamCall.write o.rest :: made := by
    simpa using hnot
  cases h with
  | complete hlast hs' => exact .complete (hlast.cons _) (hs'.trans hall)
  | @short taken hnot htaken hs' =>
    rw [htotal, show (o.advance n).sent = o.sent + n from rfl, Nat.add_assoc]
    exact .short (hquiet hnot) (hless htaken) (hs'.trans (hpart taken))
  | @unwritten taken e hnot htaken hs' hkind hmem =>
    rw [hwrites] at hmem
    exact .unwritten (hquiet hnot) (hless htaken) (hs'.trans (hpart taken)) hkind
      (List.mem_of_mem_tail hmem)
  | unflushed hlast hs' hhead =>
    exact .unflushed (hlast.cons _) (hs'.trans hall) (hflushes ▸ hhead)

theorem Outgoing.outcome_transmit (o : Outgoing) (s : Recorded Script) :
    ∃ made, (o.transmit s).2.calls = s.calls ++ made ∧
      o.Outcome s.stream (o.transmit s).2.stream made (o.transmit s).1 := by
  fun_induction o.transmit s with
  | case1 o s hdone s' hflush =>
    have hframe := Script.frame_of_flush (Recorded.of_called hflush)
    refine ⟨[.flush], Recorded.calls_of_called hflush, .complete ⟨[], rfl⟩ ?_⟩
    rw [hframe.2.2.1, hdone, List.append_nil]
  | case2 o s hdone e s' hflush =>
    have hframe := Script.frame_of_flush (Recorded.of_called hflush)
    refine ⟨[.flush], Recorded.calls_of_called hflush, .unflushed ⟨[], rfl⟩ ?_ ?_⟩
    · rw [hframe.2.2.1, hdone, List.append_nil]
    · exact Script.head?_flushes_of_flush_error (Recorded.of_called hflush)
  | case3 o s hrest s' hwrite =>
    have hsent := Script.sent_of_write (Recorded.of_called hwrite)
    refine ⟨[.write o.rest], Recorded.calls_of_called hwrite, ?_⟩
    have hnone : 0 < o.rest.length := List.length_pos_iff.mpr hrest
    exact .short (by simp) hnone hsent
  | case4 o s hrest n s' hwrite hn ih =>
    obtain ⟨made, hcalls, houtcome⟩ := ih
    have hscript := Recorded.of_called hwrite
    have hframe := Script.frame_of_write hscript
    refine ⟨.write o.rest :: made, ?_, houtcome.of_advance (ByteStream.le_of_write hscript)
      (Script.sent_of_write hscript) hframe.2.1 hframe.2.2⟩
    rw [hcalls, Recorded.calls_of_called hwrite, List.append_assoc]
    rfl
  | case5 o s hrest e s' hwrite hkind ih =>
    obtain ⟨made, hcalls, houtcome⟩ := ih
    have hscript := Recorded.of_called hwrite
    have hframe := Script.frame_of_write hscript
    refine ⟨.write o.rest :: made, ?_, Outcome.of_advance (n := 0) (Nat.zero_le _) ?_
      hframe.2.1 hframe.2.2 houtcome⟩
    · rw [hcalls, Recorded.calls_of_called hwrite, List.append_assoc]
      rfl
    · rw [Script.sent_of_write_error hscript, List.take_zero, List.append_nil]
  | case6 o s hrest e s' hwrite hkind =>
    have hscript := Recorded.of_called hwrite
    refine ⟨[.write o.rest], Recorded.calls_of_called hwrite, ?_⟩
    have hnone : 0 < o.rest.length := List.length_pos_iff.mpr hrest
    refine .unwritten (by simp) hnone ?_ hkind (Script.mem_writes_of_write_error hscript)
    rw [Script.sent_of_write_error hscript, List.take_zero, List.append_nil]

/-- Every write of a transmission takes a byte or uses up a step, and one call flushes. -/
theorem Outgoing.length_calls_transmit_le {o : Outgoing} {s s' : Recorded Script}
    {r : Except TransferError Unit} (h : o.transmit s = (r, s')) :
    s'.calls.length + s'.stream.writes.length ≤
      s.calls.length + s.stream.writes.length + o.rest.length + 1 := by
  have hflushed {s s' : Recorded Script} {r : Except IoError Unit}
      (h : ByteStream.flush s = (r, s')) :
      s'.calls.length = s.calls.length + 1 ∧ s'.stream.writes = s.stream.writes := by
    rw [Recorded.calls_of_called h, List.length_append]
    exact ⟨rfl, (Script.frame_of_flush (Recorded.of_called h)).2.1⟩
  have hwritten {s s' : Recorded Script} {bytes : List UInt8} {r : Except IoError Nat}
      (h : ByteStream.write s bytes = (r, s')) :
      s'.calls.length = s.calls.length + 1 ∧
        s'.stream.writes.length ≤ s.stream.writes.length := by
    rw [Recorded.calls_of_called h, List.length_append,
      (Script.frame_of_write (Recorded.of_called h)).2.2, List.length_tail]
    exact ⟨rfl, Nat.sub_le _ _⟩
  fun_induction o.transmit s with
  | case1 o s hdone stream hflush =>
    cases h
    obtain ⟨hcalls, hsteps⟩ := hflushed hflush
    rw [hcalls, hsteps]
    omega
  | case2 o s hdone e stream hflush =>
    cases h
    obtain ⟨hcalls, hsteps⟩ := hflushed hflush
    rw [hcalls, hsteps]
    omega
  | case3 o s hrest stream hwrite =>
    cases h
    obtain ⟨hcalls, hsteps⟩ := hwritten hwrite
    omega
  | case4 o s hrest n stream hwrite hn ih =>
    obtain ⟨hcalls, hsteps⟩ := hwritten hwrite
    have hpos := List.length_pos_iff.mpr hrest
    have hlater := ih h
    simp only [advance, List.length_drop] at hlater
    omega
  | case5 o s hrest e stream hwrite hkind ih =>
    obtain ⟨hcalls, -⟩ := hwritten hwrite
    have hused := Script.length_writes_of_write_error (Recorded.of_called hwrite)
    have hlater := ih h
    omega
  | case6 o s hrest e stream hwrite hkind =>
    cases h
    obtain ⟨hcalls, hsteps⟩ := hwritten hwrite
    omega

/-! ### Receiving -/

/-- The fault that a receive reports is one of the script. -/
theorem Incoming.mem_reads_of_collect {i : Incoming} {s s' : Script} {e : IoError}
    (h : i.collect s = (.error (.io e), s')) : .error e ∈ s.reads := by
  fun_induction i.collect s with
  | case1 i s => cases h
  | case2 i s hmissing stream hread =>
    simp only [TransferError.endOfStream] at h
    split at h <;> cases h
  | case3 i s hmissing bytes stream hread hbytes ih =>
    exact Script.mem_reads_of_mem_read hread (ih h)
  | case4 i s hmissing e' stream hread hkind ih =>
    exact Script.mem_reads_of_mem_read hread (ih h)
  | case5 i s hmissing e' stream hread hkind =>
    cases h
    exact Script.mem_reads_of_read_error hread

/-- Every read of a receive delivers a byte or uses up a step, or is the last. -/
theorem Incoming.length_calls_collect_le {i : Incoming} {s s' : Recorded Script}
    {r : Except TransferError (List UInt8)} (h : i.collect s = (r, s')) :
    s'.calls.length + s'.stream.reads.length ≤
      s.calls.length + s.stream.reads.length + i.missing := by
  have hread {s s' : Recorded Script} {n : Nat} {r : Except IoError (List UInt8)}
      (h : ByteStream.read s n = (r, s')) :
      s'.calls.length = s.calls.length + 1 ∧ s'.stream.reads.length ≤ s.stream.reads.length := by
    rw [Recorded.calls_of_called h, List.length_append]
    exact ⟨rfl, Script.length_reads_of_read_le (Recorded.of_called h)⟩
  fun_induction i.collect s with
  | case1 i s hdone =>
    cases h
    omega
  | case2 i s hmissing stream hcall =>
    cases h
    obtain ⟨hcalls, hsteps⟩ := hread hcall
    omega
  | case3 i s hmissing bytes stream hcall hbytes ih =>
    obtain ⟨hcalls, hsteps⟩ := hread hcall
    have hpos := List.length_pos_iff.mpr hbytes
    have hlater := ih h
    simp only [absorb] at hlater
    omega
  | case4 i s hmissing e stream hcall hkind ih =>
    obtain ⟨hcalls, -⟩ := hread hcall
    have hused := Script.length_reads_of_read_error (Recorded.of_called hcall)
    have hlater := ih h
    omega
  | case5 i s hmissing e stream hcall hkind =>
    cases h
    obtain ⟨hcalls, hsteps⟩ := hread hcall
    omega

/-! ### Both together -/

theorem exists_outcome_send (start : Script) (bytes : List UInt8) :
    ∃ r s' made, send (⟨start, []⟩ : Recorded Script) bytes = (r, ⟨s', made⟩) ∧
      send start bytes = (r, s') ∧ made.length ≤ bytes.length + start.writes.length + 1 ∧
      (Outgoing.ofBytes bytes).Outcome start s' made r := by
  obtain ⟨made, hcalls, houtcome⟩ := (Outgoing.ofBytes bytes).outcome_transmit ⟨start, []⟩
  rw [List.nil_append] at hcalls
  cases hsend : (Outgoing.ofBytes bytes).transmit (⟨start, []⟩ : Recorded Script) with
  | mk r course =>
    obtain ⟨s', calls⟩ := course
    have hbound := Outgoing.length_calls_transmit_le hsend
    rw [hsend] at hcalls houtcome
    cases hcalls
    refine ⟨r, s', calls, hsend, send_of_recorded hsend, ?_, houtcome⟩
    simp only [List.length_nil, Outgoing.ofBytes] at hbound
    omega

theorem exists_ends_receive (start : Script) (n : Nat) :
    ∃ r s' made got, receive (⟨start, []⟩ : Recorded Script) n = (r, ⟨s', made⟩) ∧
      receive start n = (r, s') ∧ made.length ≤ n + start.reads.length ∧
      start.undelivered = got ++ s'.undelivered ∧ (Incoming.ofLength n).Ends got r := by
  cases hreceive : receive (⟨start, []⟩ : Recorded Script) n with
  | mk r course =>
    obtain ⟨s', calls⟩ := course
    have hbound := Incoming.length_calls_collect_le hreceive
    have hplain := receive_of_recorded hreceive
    obtain ⟨got, htaken, hends⟩ := Incoming.ends_collect hplain
    refine ⟨r, s', calls, got, rfl, hplain, ?_, htaken, hends⟩
    simp only [List.length_nil, Incoming.ofLength] at hbound
    omega

/-- The accounts of a send and of a receive on any script. Both end after no more calls than there are
bytes to move and steps in the script, and one flush. A send that succeeds has left all its bytes and
flushed once, behind the last of them. One that is cut short has left exactly the bytes it reports. One
that fails has either left not all of its bytes and not flushed, or all of them and the one flush has
failed. A receive that succeeds has taken the next bytes of the script, as many as it asked for, and
made no call if that was none. Else it has taken exactly the bytes it reports, or some and not all. An
interruption is reported of a flush only. -/
theorem transfers_exact (start : Script) (bytes : List UInt8) (n : Nat) :
    (∃ r s' made, send (⟨start, []⟩ : Recorded Script) bytes = (r, ⟨s', made⟩) ∧
      send start bytes = (r, s') ∧
      made.length ≤ bytes.length + start.writes.length + 1 ∧
      match r with
      | .ok () => s'.sent = start.sent ++ bytes ∧ StreamCall.FlushesLast made
      | .error (.shortWrite expected sent) =>
          expected = bytes.length ∧ sent < expected ∧
            s'.sent = start.sent ++ bytes.take sent ∧ .flush ∉ made
      | .error (.io e) =>
          (∃ taken, taken < bytes.length ∧ s'.sent = start.sent ++ bytes.take taken ∧
            .flush ∉ made ∧ e.kind ≠ .interrupted ∧ .error e ∈ start.writes) ∨
          s'.sent = start.sent ++ bytes ∧ StreamCall.FlushesLast made ∧
            start.flushes.head? = some (.error e)
      | .error _ => False) ∧
    ∃ r s' made, receive (⟨start, []⟩ : Recorded Script) n = (r, ⟨s', made⟩) ∧
      receive start n = (r, s') ∧
      made.length ≤ n + start.reads.length ∧
      match r with
      | .ok got =>
          got.length = n ∧ start.undelivered = got ++ s'.undelivered ∧ (n = 0 → made = [])
      | .error .closed => 0 < n ∧ s'.undelivered = start.undelivered
      | .error (.shortRead expected received) =>
          expected = n ∧ 0 < received ∧ received < n ∧
            ∃ got, got.length = received ∧ start.undelivered = got ++ s'.undelivered
      | .error (.io e) =>
          e.kind ≠ .interrupted ∧ .error e ∈ start.reads ∧
            ∃ got, got.length < n ∧ start.undelivered = got ++ s'.undelivered
      | .error _ => False := by
  refine ⟨?_, ?_⟩
  · obtain ⟨r, s', made, hrecorded, hsend, hbound, houtcome⟩ := exists_outcome_send start bytes
    refine ⟨r, s', made, hrecorded, hsend, hbound, ?_⟩
    cases houtcome with
    | complete hlast hs' => exact ⟨hs', hlast⟩
    | @short taken hnot htaken hs' =>
      simp only [Outgoing.ofBytes, Outgoing.total, Nat.zero_add]
      exact ⟨trivial, htaken, hs', hnot⟩
    | unwritten hnot htaken hs' hkind hmem => exact .inl ⟨_, htaken, hs', hnot, hkind, hmem⟩
    | unflushed hlast hs' hhead => exact .inr ⟨hs', hlast, hhead⟩
  · obtain ⟨r, s', made, got, hrecorded, hreceive, hbound, htaken, hends⟩ :=
      exists_ends_receive start n
    refine ⟨r, s', made, hrecorded, hreceive, hbound, ?_⟩
    cases hends with
    | whole hlen =>
      refine ⟨hlen, htaken, fun hnone => ?_⟩
      rw [receive, Incoming.collect_of_done hnone] at hrecorded
      cases hrecorded
      rfl
    | cut hlen =>
      simp only [Incoming.ofLength, Incoming.total, List.length_nil, Nat.zero_add] at hlen ⊢
      cases got with
      | nil => exact ⟨hlen, htaken.symm⟩
      | cons b bs => exact ⟨rfl, Nat.succ_pos _, hlen, b :: bs, rfl, htaken⟩
    | failed hlen hkind => exact ⟨hkind, Incoming.mem_reads_of_collect hreceive, got, hlen, htaken⟩

end RemoteRegisters
