import RemoteRegisters.Proofs.Session.Reception
import RemoteRegisters.Proofs.Stream.Lossless

/-!
# The transcript of a session on a stream without faults

A session that is run on a stream makes one transfer after the other, and a
settling `Remote` takes its bytes from an inbox. On a stream without faults the
two agree (`Session.run_of_shows`), however the stream cuts its bytes into
chunks. What a session makes of a byte string is therefore said by decoding it.
-/

namespace RemoteRegisters

open Duplex

namespace Script

theorem Shows.send {s : Script} {v : View} (h : s.Shows v) (bytes : List UInt8) :
    ∃ s', RemoteRegisters.send s bytes = (.ok (), s') ∧
      s'.Shows { v with sent := v.sent ++ bytes } := by
  obtain ⟨s', hsend, hshows⟩ := lossless_shows.transmit (o := .ofBytes bytes) h
  refine ⟨s', hsend, ?_⟩
  by_cases hnil : bytes = []
  · rw [Outgoing.ofBytes, if_pos hnil] at hshows
    rwa [hnil, List.append_nil]
  · rwa [Outgoing.ofBytes, if_neg hnil] at hshows

end Script

namespace Session

section Steps

variable {σ : Type} [ByteStream σ] {s : Session} {stream stream' : σ}

theorem step_of_sent {response : List UInt8} (h : s.phase = .responding response)
    (hsend : send stream response = (.ok (), stream')) : s.step stream = (s.responded, stream') := by
  simp only [step, h, hsend]

theorem step_of_received {bytes : List UInt8} (h : s.phase.distance = 1)
    (hreceive : receive stream s.phase.demand = (.ok bytes, stream')) :
    s.step stream = (s.received bytes, stream') := by
  unfold step
  split
  · simp_all [Phase.distance]
  · simp_all [Phase.distance]
  · rw [hreceive]

theorem step_of_receiveFailed {e : TransferError} (h : s.phase.distance = 1)
    (hreceive : receive stream s.phase.demand = (.error e, stream')) :
    s.step stream = (s.receiveFailed e, stream') := by
  unfold step
  split
  · simp_all [Phase.distance]
  · simp_all [Phase.distance]
  · rw [hreceive]

end Steps

theorem run_of_not_over {s : Session} {stream : Script} (h : ¬s.isOver = true) :
    s.run stream = (s.step stream).1.run (s.step stream).2 := by
  rw [run, if_neg h]

theorem run_of_over {s : Session} {stream : Script} (h : s.isOver = true) :
    s.run stream = (s, stream) := by
  rw [run, if_pos h]

/-- A session run on a stream without faults goes as far as it would with all bytes in its inbox, and
then ends with the stream. -/
theorem run_of_shows {r : Remote} {stream : Script}
    (h : stream.Shows ⟨r.inbox, r.outbox⟩) :
    (r.session.run stream).1 = r.settle.hangUp ∧
      (r.session.run stream).2.sent = r.settle.outbox := by
  -- each step of the session is one of settling: the transfer succeeds as long as the inbox lasts
  fun_induction Remote.settle r generalizing stream with
  | case1 r hover =>
    rw [run_of_over hover, Remote.hangUp, if_pos hover]
    exact ⟨rfl, h.2⟩
  | case2 r hover response hresponse ih =>
    obtain ⟨stream', hsend, hshows⟩ := h.send response
    rw [run_of_not_over hover, step_of_sent (phase_of_response? hresponse) hsend]
    exact ih hshows
  | case3 r hover hresponse demand =>
    rename_i hlen ih
    have hwait := (response?_eq_none_iff hover).mp hresponse
    obtain ⟨stream', hreceive, hshows⟩ :=
      Script.lossless_shows.collect (i := .ofLength r.session.phase.demand) h hlen
    rw [run_of_not_over hover, step_of_received hwait hreceive]
    exact ih hshows
  | case4 r hover hresponse demand =>
    rename_i hlen
    have hwait := (response?_eq_none_iff hover).mp hresponse
    -- the inbox is too short, so the receive fails and the session is over
    have hreceive := Script.lossless_shows.collect_short (i := .ofLength demand) h
      (Nat.not_le.mp hlen)
    have hsent := (Incoming.ofLength demand).sent_collect stream
    generalize hresult : (Incoming.ofLength demand).collect stream = result at hreceive hsent
    obtain ⟨outcome, stream'⟩ := result
    cases hreceive
    have hended (e : TransferError) : (r.session.receiveFailed e).isOver = true := by
      simp [isOver, distance_receiveFailed hwait]
    rw [run_of_not_over hover, step_of_receiveFailed hwait hresult, run_of_over (hended _),
      Remote.hangUp_of_waiting hwait]
    refine ⟨?_, hsent.trans h.2⟩
    simp only [Incoming.ofLength, Incoming.total, List.length_nil, Nat.zero_add]
    rfl

/-- On a stream without faults the session carries out the requests that decode, sends the answers,
and ends for the reason for which the rest does not decode. -/
theorem run_of_faultFree (m : RegisterMap) {stream : Script} {bytes : List UInt8} {e : FrameError}
    (h : stream.FaultFree bytes) (hd : Request.decode (Request.decodeAll bytes).2 = .error e) :
    ((ofMap m).run stream).1 =
        ((ofMap m).serveAll (Request.decodeAll bytes).1).finish
          (EndReason.ofRest (Request.decodeAll bytes).2 e) ∧
      ((ofMap m).run stream).2.sent =
        stream.sent ++ (RegisterFile.ofMap m).responses (Request.decodeAll bytes).1 := by
  obtain ⟨hcourse, hsent⟩ :=
    run_of_shows (r := ⟨ofMap m, bytes, stream.sent⟩) ⟨h, rfl⟩
  -- the remote behind the last request that decodes
  let served : Remote :=
    ⟨(ofMap m).serveAll (Request.decodeAll bytes).1, (Request.decodeAll bytes).2,
      stream.sent ++ (RegisterFile.ofMap m).responses (Request.decodeAll bytes).1⟩
  have hsettle : Remote.settle ⟨ofMap m, bytes, stream.sent⟩ = served.settle :=
    Remote.settle_decodeAll rfl
  obtain ⟨hout, hend⟩ := Remote.endsBy_of_error (r := served) (phase_serveAll rfl _) hd
  rw [hsettle] at hcourse hsent
  exact ⟨hcourse.trans hend, hsent.trans hout⟩

/-- Behind whole frames of requests that fit them, what is left decides how the session ends. -/
theorem run_of_frames (m : RegisterMap) {stream : Script} {requests : List Request}
    {rest : List UInt8} {e : FrameError} (hfit : ∀ r ∈ requests, r.fit = r)
    (hd : Request.decode rest = .error e)
    (h : stream.FaultFree (requests.flatMap Request.encode ++ rest)) :
    ((ofMap m).run stream).1 =
      ((ofMap m).serveAll requests).finish (EndReason.ofRest rest e) := by
  have hall : Request.decodeAll (requests.flatMap Request.encode ++ rest) = (requests, rest) := by
    rw [Request.decodeAll_encode_append, Request.decodeAll_of_error hd, List.append_nil,
      List.map_congr_left hfit, List.map_id']
  have hcourse := (run_of_faultFree m (e := e) h (by rw [hall]; exact hd)).1
  rwa [hall] at hcourse

/-- What a session makes of a byte string, on a stream that delivers it in chunks, ends, takes
everything and flushes. The session carries out the requests that decode, on registers in their reset
state, and answers the reads among them. It ends for the reason for which the rest does not decode. -/
theorem run_eq_decodeAll (m : RegisterMap) (stream : Script) (bytes : List UInt8)
    (h : stream.FaultFree bytes) :
    let course := (ofMap m).run stream
    let requests := (Request.decodeAll bytes).1
    let rest := (Request.decodeAll bytes).2
    course.1.served = requests ∧
      course.1.frames = requests.length ∧
      course.1.registers = (RegisterFile.ofMap m).applyAll requests ∧
      course.1.output = (RegisterFile.ofMap m).transmitted requests ∧
      course.2.sent = stream.sent ++ (RegisterFile.ofMap m).responses requests ∧
      ∃ e, Request.decode rest = .error e ∧
        course.1.endReason? = some (EndReason.ofRest rest e) := by
  intro course requests rest
  obtain ⟨e, he⟩ := Request.decode_rest bytes
  obtain ⟨hlast, hsent⟩ := run_of_faultFree m h he
  have hserved : course.1.served = requests := by
    rw [hlast]
    exact served_serveAll (ofMap m) requests
  refine ⟨hserved, ?_, ?_, ?_, hsent, e, he, ?_⟩
  · rw [hlast]
    exact (frames_serveAll (ofMap m) requests).trans (Nat.zero_add _)
  · rw [hlast]
    exact registers_serveAll (ofMap m) requests
  · rw [hlast]
    exact output_serveAll (ofMap m) requests
  · rw [hlast]
    rfl

/-- A write and a read that the chunks cut in the middle, and the first byte of a frame that is never
completed. -/
theorem run_torn_frames :
    let stream : Script :=
      { reads := [.data [0x57, 0, 0], .data [0, 0, 1, 0x41, 0x52], .data [8, 0, 0, 0, 2, 0x57],
          .endOfStream]
        writes := [.accept 1]
        flushes := [.succeed] }
    let course := (ofMap .standard).run stream
    stream.FaultFree [0x57, 0, 0, 0, 0, 1, 0x41, 0x52, 8, 0, 0, 0, 2, 0x57] ∧
      course.1.served = [.write 0 .byte 0x41, .read 8 .half] ∧
      course.1.output = [0x41] ∧
      course.2.sent = [1, 0] ∧
      course.1.endReason? = some (.truncated 6 1) := by
  intro stream course
  have hfree : stream.FaultFree [0x57, 0, 0, 0, 0, 1, 0x41, 0x52, 8, 0, 0, 0, 2, 0x57] :=
    { delivers := .chunk (by decide) (.chunk (by decide) (.chunk (by decide) (.ended [])))
      accepts := by simp [stream]
      flushes := by simp [stream] }
  have hdecode : Request.decodeAll [0x57, 0, 0, 0, 0, 1, 0x41, 0x52, 8, 0, 0, 0, 2, 0x57] =
      ([.write 0 .byte 0x41, .read 8 .half], [0x57]) := by
    rw [Request.decodeAll_of_ok rfl, Request.decodeAll_of_ok rfl, Request.decodeAll_of_error rfl]
    rfl
  obtain ⟨hserved, -, -, houtput, hsent, e, he, hend⟩ := run_eq_decodeAll .standard stream _ hfree
  rw [hdecode] at hserved houtput hsent he hend
  cases he
  exact ⟨hfree, hserved, houtput, hsent, hend⟩

end Session

end RemoteRegisters
