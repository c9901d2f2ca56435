import RemoteRegisters.Proofs.Bridge.Accounting
import RemoteRegisters.Proofs.Session.Transcript

/-!
# What reaches the far end of a faulty stream

Whatever the steps of a script do, the bytes that it takes from a bridge are the
frames of the completed accesses and, if an access failed, a part of its frame
(`Bridge.sent_after`). A session to which these bytes come carries out the
completed accesses, and the failed one if its frame is whole. It never takes the
torn frame for a malformed one.

## Main definitions

- `Bridge.completed` — the requests of those that were completed without a fault
-/

namespace RemoteRegisters

theorem Call.fit_of_mem_requests {cs : List Call} {r : Request} (h : r ∈ requests cs) :
    r.fit = r := by
  obtain ⟨c, -, hc⟩ := List.mem_filterMap.mp h
  unfold request? at hc
  split at hc
  · cases hc
  · cases hc
    exact c.fit_request _

/-- An exchange leaves a part of its request on the script, and all of it if it succeeds. -/
theorem Call.sent_exchange {c : Call} {a : Placement} {s s' : Script}
    {r : Except TransferError (Option UInt32)} (h : c.exchange a s = (r, s')) :
    ∃ part, part <+: (c.request a).encode ∧ s'.sent = s.sent ++ part ∧
      ∀ value, r = .ok value → part = (c.request a).encode := by
  unfold exchange at h
  split at h
  · rename_i hsend
    cases h
    obtain ⟨part, hfront, hsent, -⟩ := Outgoing.sent_transmit hsend
    exact ⟨part, hfront, hsent, fun _ hok => by cases hok⟩
  · rename_i stream' hsend
    obtain ⟨part, hfront, hsent, hall⟩ := Outgoing.sent_transmit hsend
    refine ⟨part, hfront, ?_, fun _ _ => hall rfl⟩
    rw [← hsent]
    split at h
    · cases h
      rfl
    · have hreceive := (Incoming.ofLength a.width.bytes).sent_collect stream'
      split at h <;> rename_i hgot <;> cases h <;> rw [receive] at hgot <;> rwa [hgot] at hreceive

namespace Bridge

/-- The requests of the accesses that are completed without a fault. -/
def completed {σ : Type} [ByteStream σ] (b : Bridge σ) : List Call → List Request
  | [] => []
  | c :: cs =>
      let o := b.perform c
      if o.state.faults = b.faults then c.request?.toList ++ o.state.completed cs
      else o.state.completed cs

theorem completed_of_broken {σ : Type} [ByteStream σ] {b : Bridge σ} (h : b.broken = true)
    (cs : List Call) : b.completed cs = [] := by
  induction cs generalizing b with
  | nil => rfl
  | cons c cs ih =>
    have hrest := ih (perform_of_broken h c).1
    have haccess := b.access_perform c
    unfold completed
    generalize b.perform c = o at haccess hrest
    cases haccess with
    | refused hplace => simp only [Call.request?_of_refused hplace, if_true, hrest]; rfl
    | abandoned => simpa [lose, recordFault] using hrest
    | failed _ hintact => cases h.symm.trans hintact
    | completed _ hintact => cases h.symm.trans hintact

/-- The bytes that a script takes are the frames of the completed accesses, and a part of the frame of
the next one if its exchange failed. -/
theorem sent_after {b : Bridge Script} (h : b.broken = false) (cs : List Call) :
    (b.after cs).broken = false ∧ Call.requests cs = b.completed cs ∧
        (b.after cs).stream.sent = b.stream.sent ++ (b.completed cs).flatMap Request.encode ∨
      (b.after cs).broken = true ∧ ∃ next later part,
        Call.requests cs = b.completed cs ++ next :: later ∧ part <+: next.encode ∧
        (b.after cs).stream.sent =
          b.stream.sent ++ (b.completed cs).flatMap Request.encode ++ part := by
  induction cs generalizing b with
  | nil => exact .inl ⟨h, rfl, (List.append_nil _).symm⟩
  | cons c cs ih =>
    have haccess := b.access_perform c
    rw [after_cons, completed, Call.requests, List.filterMap_cons]
    generalize b.perform c = o at haccess
    cases haccess with
    | refused hplace =>
      rw [Call.request?_of_refused hplace]
      simp only [if_true, Option.toList_none, List.nil_append]
      exact ih h
    | abandoned _ hbroken => cases h.symm.trans hbroken
    | @failed a e stream hplace _ hexchange =>
      -- this is the torn frame, and behind it the stream is left alone
      obtain ⟨part, hfront, hsent, -⟩ := Call.sent_exchange hexchange
      have hbroken : ({ b with stream := stream }.lose c e).state.broken = true := rfl
      obtain ⟨hstays, hstream⟩ := after_of_broken hbroken cs
      have hcounted : ¬({ b with stream := stream }.lose c e).state.faults = b.faults :=
        Nat.succ_ne_self b.faults
      rw [Call.request?_of_place hplace]
      simp only [if_neg hcounted, completed_of_broken hbroken, hstream]
      refine .inr ⟨hstays, c.request a, Call.requests cs, part, rfl, hfront, ?_⟩
      rw [List.flatMap_nil, List.append_nil]
      exact hsent
    | @completed a value stream hplace hintact hexchange =>
      obtain ⟨part, -, hsent, hall⟩ := Call.sent_exchange hexchange
      rw [hall value rfl] at hsent
      rw [Call.request?_of_place hplace]
      simp only [if_true, Option.toList_some, List.cons_append, List.nil_append,
        List.flatMap_cons, ← List.append_assoc, ← hsent]
      obtain ⟨hstays, hrequests, hrest⟩ | ⟨hbroken, next, later, part, hrequests, hrest⟩ :=
        ih (b := { b with stream := stream }) hintact
      · exact .inl ⟨hstays, congrArg _ hrequests, hrest⟩
      · exact .inr ⟨hbroken, next, later, part, congrArg _ hrequests, hrest⟩

end Bridge

namespace Session

/-- What decoding says of a part of a frame, as the reason for the end of a session. -/
theorem ofRest_of_prefix {next : Request} {part : List UInt8} (hfront : part <+: next.encode)
    (hlen : part.length < next.frameLength) :
    ∃ e expected, Request.decode part = .error e ∧ expected ≤ next.frameLength ∧
      EndReason.ofRest part e =
        if part = [] then .peerClosed else .truncated expected part.length := by
  obtain ⟨expected, hle, hd⟩ := Request.decode_of_prefix hfront hlen
  refine ⟨_, expected, hd, hle, ?_⟩
  cases part with
  | nil => rfl
  | cons tag rest =>
    -- the first byte of a frame is that of its kind
    obtain ⟨rfl, -⟩ := List.cons_prefix_cons.mp (hfront : tag :: rest <+: next.kind.tag :: _)
    rw [EndReason.ofRest_of_truncated, if_neg (List.cons_ne_nil _ _)]

variable (m : RegisterMap) {stream : Script} {done : List Request}

theorem run_of_whole (hdone : ∀ r ∈ done, r.fit = r)
    (h : stream.FaultFree (done.flatMap Request.encode)) :
    ((ofMap m).run stream).1.served = done ∧
      ((ofMap m).run stream).1.endReason? = some .peerClosed := by
  rw [← List.append_nil (done.flatMap Request.encode)] at h
  rw [run_of_frames m hdone Request.decode_nil h]
  exact ⟨served_serveAll _ _, rfl⟩

/-- A session that is fed whole frames and a part of one more. -/
theorem run_of_torn {next : Request} {part : List UInt8} (hdone : ∀ r ∈ done, r.fit = r)
    (hnext : next.fit = next) (hfront : part <+: next.encode)
    (h : stream.FaultFree (done.flatMap Request.encode ++ part)) :
    let session := ((ofMap m).run stream).1
    if part = next.encode then
      session.served = done ++ [next] ∧ session.endReason? = some .peerClosed
    else
      session.served = done ∧
        (part = [] ∧ session.endReason? = some .peerClosed ∨
          part ≠ [] ∧ ∃ expected, expected ≤ next.frameLength ∧
            session.endReason? = some (.truncated expected part.length)) := by
  intro session
  by_cases hwhole : part = next.encode
  · have hframes : done.flatMap Request.encode ++ part = (done ++ [next]).flatMap Request.encode := by
      simp [hwhole]
    rw [hframes] at h
    rw [if_pos hwhole]
    refine run_of_whole m (fun r hr => ?_) h
    obtain hr | hr := List.mem_append.mp hr
    · exact hdone r hr
    · rwa [List.mem_singleton.mp hr]
  · obtain ⟨e, expected, hd, hle, hreason⟩ :=
      ofRest_of_prefix hfront (Request.length_lt_frameLength hfront hwhole)
    have hcourse : session = _ := run_of_frames m hdone hd h
    rw [hreason] at hcourse
    have hserved : session.served = done := by
      rw [hcourse]
      exact served_serveAll _ _
    rw [if_neg hwhole]
    refine ⟨hserved, ?_⟩
    by_cases hnone : part = []
    · rw [if_pos hnone] at hcourse
      exact .inl ⟨hnone, congrArg endReason? hcourse⟩
    · rw [if_neg hnone] at hcourse
      exact .inr ⟨hnone, expected, hle, congrArg endReason? hcourse⟩

end Session

namespace Bridge

/-- At most once, and in order: a script takes the frames of the completed accesses, and at the first
fault a part of the frame of the access that failed. Nothing of the accesses behind it is ever sent. A
session that is fed these bytes carries out the completed accesses, and the failed one exactly if its
frame is whole. It ends in order or by the torn frame. -/
theorem delivery (s : Script) (hooked : Bool) (cs : List Call) :
    let fresh : Bridge Script := { stream := s, hooked := hooked }
    let b := fresh.after cs
    let frames := (fresh.completed cs).flatMap Request.encode
    b.faults = 0 ∧ Call.requests cs = fresh.completed cs ∧ b.stream.sent = s.sent ++ frames ∧
        (∀ (m : RegisterMap) (t : Script), t.FaultFree frames →
          let session := ((Session.ofMap m).run t).1
          session.served = fresh.completed cs ∧ session.endReason? = some .peerClosed) ∨
      1 ≤ b.faults ∧ ∃ next later part,
        Call.requests cs = fresh.completed cs ++ next :: later ∧ part <+: next.encode ∧
        b.stream.sent = s.sent ++ frames ++ part ∧
        ∀ (m : RegisterMap) (t : Script), t.FaultFree (frames ++ part) →
          let session := ((Session.ofMap m).run t).1
          if part = next.encode then
            session.served = fresh.completed cs ++ [next] ∧ session.endReason? = some .peerClosed
          else
            session.served = fresh.completed cs ∧
              (part = [] ∧ session.endReason? = some .peerClosed ∨
                part ≠ [] ∧ ∃ expected, expected ≤ next.frameLength ∧
                  session.endReason? = some (.truncated expected part.length)) := by
  intro fresh b frames
  have hbooks : b.Books hooked := (books_fresh s hooked).after cs
  have hfit {r : Request} (h : r ∈ Call.requests cs) : r.fit = r := Call.fit_of_mem_requests h
  obtain ⟨hintact, hrequests, hsent⟩ | ⟨hbroken, next, later, part, hrequests, hfront, hsent⟩ :=
    fresh.sent_after rfl cs
  · refine .inl ⟨hbooks.broken_eq_false_iff.mp hintact, hrequests, hsent, fun m t ht => ?_⟩
    exact Session.run_of_whole m (fun r hr => hfit (hrequests ▸ hr)) ht
  · refine .inr ⟨hbooks.broken_iff.mp hbroken, next, later, part, hrequests, hfront, hsent,
      fun m t ht => ?_⟩
    have hdone (r : Request) (hr : r ∈ fresh.completed cs) : r.fit = r :=
      hfit (hrequests ▸ List.mem_append_left _ hr)
    have hnext : next.fit = next :=
      hfit (hrequests ▸ List.mem_append_right _ List.mem_cons_self)
    exact Session.run_of_torn m hdone hnext hfront ht

/-- A write is delivered, the read behind it is torn, and the last write is never sent. -/
theorem delivery_torn_read :
    let s : Script :=
      { reads := [], writes := [.accept 7, .accept 2, .error ⟨.brokenPipe, none⟩], flushes := [] }
    let fresh : Bridge Script := { stream := s }
    let b := fresh.after [.write 0 1 0x41, .read 4 4, .write 0 1 0x42]
    let session := ((Session.ofMap .standard).run (Script.ofBytes b.stream.sent)).1
    (Script.ofBytes b.stream.sent).FaultFree b.stream.sent ∧
      b.stream.sent = [0x57, 0, 0, 0, 0, 1, 0x41, 0x52, 4] ∧
      session.served = [.write 0 .byte 0x41] ∧
      ∃ expected, session.endReason? = some (.truncated expected 2) := by
  intro s fresh b session
  have hfaults : b.faults = 2 := by
    simp only [b, fresh, s]
    cbv
  have hcompleted :
      fresh.completed [.write 0 1 0x41, .read 4 4, .write 0 1 0x42] = [.write 0 .byte 0x41] := by
    simp only [fresh, s]
    cbv
  have hsent : b.stream.sent = [0x57, 0, 0, 0, 0, 1, 0x41, 0x52, 4] := by
    simp only [b, fresh, s]
    cbv
  have hfree : (Script.ofBytes b.stream.sent).FaultFree b.stream.sent := by
    have hchunk : Script.Delivers [.data b.stream.sent] (b.stream.sent ++ []) :=
      .chunk (by simp [hsent]) .spent
    rw [List.append_nil] at hchunk
    exact ⟨hchunk, by simp [Script.ofBytes], by simp [Script.ofBytes]⟩
  obtain ⟨hnone, -⟩ | ⟨-, next, later, part, hrequests, -, hbytes, hrun⟩ :=
    delivery s false [.write 0 1 0x41, .read 4 4, .write 0 1 0x42]
  · cases hfaults.symm.trans hnone
  · rw [hcompleted] at hrequests hbytes hrun
    have hpart : part = [0x52, 4] := by
      have hbytes' : [0x57, 0, 0, 0, 0, 1, 0x41] ++ [0x52, 4] = [0x57, 0, 0, 0, 0, 1, 0x41] ++ part :=
        hsent.symm.trans hbytes
      exact (List.append_cancel_left hbytes').symm
    have hnext : next = .read 4 .word := by
      have hlist : [Request.write 0 .byte 0x41, .read 4 .word, .write 0 .byte 0x42] =
          [.write 0 .byte 0x41] ++ next :: later := hrequests
      cases hlist
      rfl
    subst hpart hnext
    have hfed : [Request.write 0 .byte 0x41].flatMap Request.encode ++ [0x52, 4] = b.stream.sent :=
      hsent.symm
    obtain ⟨hserved, ⟨hnil, -⟩ | ⟨-, expected, -, hreason⟩⟩ :=
      hrun .standard (Script.ofBytes b.stream.sent) (by rwa [hfed])
    · cases hnil
    · exact ⟨hfree, hsent, hserved, expected, hreason⟩

end Bridge

end RemoteRegisters
