import RemoteRegisters.Proofs.Stream.Accounting

/-!
# Streams that lose nothing

A lossless stream may move bytes in pieces of any length and may be interrupted,
but it takes every byte that is written and delivers every byte that is under
way, in order. A transfer over such a stream does what one would expect of a
single call: a send puts the whole byte string, and a receive takes as many
bytes as it asks for, or finds that the stream ends too soon.

## Main definitions

- `Duplex` — what one end sees of a connection
- `Lossless` — the streams that keep to such a view
- `Script.FaultFree` — the scripts that deliver given bytes and take everything

## Design notes

The view is apart from the stream, because what a write leads to differs: on a
script it adds to the bytes that were taken, and on a connection to a session it
also brings the responses under way.
-/

namespace RemoteRegisters

/-- What one end sees of a two-way connection. -/
class Duplex (V : Type) where
  /-- The bytes under way to this end. -/
  incoming : V → List UInt8
  taken : V → Nat → V
  given : V → List UInt8 → V
  incoming_taken (v : V) (n : Nat) : incoming (taken v n) = (incoming v).drop n
  taken_zero (v : V) : taken v 0 = v
  taken_taken (v : V) (m n : Nat) : taken (taken v m) n = taken v (m + n)
  given_given (v : V) (a b : List UInt8) : given (given v a) b = given v (a ++ b)

open Duplex

/-- The streams that carry every byte. A call moves some bytes if there are any to move, or is
interrupted. -/
structure Lossless {σ V : Type} [ByteStream σ] [Duplex V] (carries : σ → V → Prop) : Prop where
  /-- A read delivers the next bytes, and none only if none are under way. -/
  read_ok {s s' : σ} {v : V} {n : Nat} {got : List UInt8} :
    carries s v → 0 < n → ByteStream.read s n = (.ok got, s') →
      got <+: incoming v ∧ (got = [] → incoming v = []) ∧
        (got ≠ [] → carries s' (taken v got.length))
  read_error {s s' : σ} {v : V} {n : Nat} {e : IoError} :
    carries s v → 0 < n → ByteStream.read s n = (.error e, s') →
      e.kind = .interrupted ∧ carries s' v
  /-- A write takes at least one of the bytes that are offered. -/
  write_ok {s s' : σ} {v : V} {bytes : List UInt8} {n : Nat} :
    carries s v → bytes ≠ [] → ByteStream.write s bytes = (.ok n, s') →
      0 < n ∧ carries s' (given v (bytes.take n))
  write_error {s s' : σ} {v : V} {bytes : List UInt8} {e : IoError} :
    carries s v → bytes ≠ [] → ByteStream.write s bytes = (.error e, s') →
      e.kind = .interrupted ∧ carries s' v
  flush_ok {s s' : σ} {v : V} {r : Except IoError Unit} :
    carries s v → ByteStream.flush s = (r, s') → r = .ok () ∧ carries s' v

namespace Lossless

variable {σ V : Type} [ByteStream σ] [Duplex V] {carries : σ → V → Prop}

/-- The rest of a byte string is sent as a whole. Nothing is given where nothing is left. -/
theorem transmit (hl : Lossless carries) {o : Outgoing} {stream : σ} {v : V}
    (hv : carries stream v) :
    ∃ stream', o.transmit stream = (.ok (), stream') ∧
      carries stream' (if o.rest = [] then v else given v o.rest) := by
  -- the view moves with the stream, so it is general in the induction over the calls
  fun_induction o.transmit stream generalizing v with
  | case1 o stream hdone stream' hflush =>
    exact ⟨stream', rfl, by rw [if_pos hdone]; exact (hl.flush_ok hv hflush).2⟩
  | case2 o stream hdone e stream' hflush => cases (hl.flush_ok hv hflush).1
  | case3 o stream hrest stream' hwrite =>
    -- a lossless stream never takes nothing
    exact absurd (hl.write_ok hv hrest hwrite).1 (Nat.lt_irrefl 0)
  | case4 o stream hrest n stream' hwrite hn ih =>
    obtain ⟨last, hlast, hcarries⟩ := ih (hl.write_ok hv hrest hwrite).2
    refine ⟨last, hlast, ?_⟩
    rw [if_neg hrest]
    rw [Outgoing.advance] at hcarries
    by_cases hall : o.rest.drop n = []
    · -- the call took all that was left
      rw [if_pos hall] at hcarries
      rwa [← List.take_append_drop n o.rest, hall, List.append_nil]
    · rwa [if_neg hall, given_given, List.take_append_drop] at hcarries
  | case5 o stream hrest e stream' hwrite hkind ih => exact ih (hl.write_error hv hrest hwrite).2
  | case6 o stream hrest e stream' hwrite hkind =>
    exact absurd (hl.write_error hv hrest hwrite).1 hkind

theorem send (hl : Lossless carries) {stream : σ} {v : V} (hv : carries stream v)
    {bytes : List UInt8} (hbytes : bytes ≠ []) :
    ∃ stream', RemoteRegisters.send stream bytes = (.ok (), stream') ∧
      carries stream' (given v bytes) := by
  obtain ⟨stream', hsend, hv'⟩ := hl.transmit (o := .ofBytes bytes) hv
  rw [Outgoing.ofBytes, if_neg hbytes] at hv'
  exact ⟨stream', hsend, hv'⟩

/-- The missing bytes are received if so many are under way. -/
theorem collect (hl : Lossless carries) {i : Incoming} {stream : σ} {v : V}
    (hv : carries stream v) (hlen : i.missing ≤ (incoming v).length) :
    ∃ stream', i.collect stream = (.ok (i.got ++ (incoming v).take i.missing), stream') ∧
      carries stream' (taken v i.missing) := by
  fun_induction i.collect stream generalizing v with
  | case1 i stream hdone =>
    refine ⟨stream, ?_, ?_⟩
    · rw [hdone, List.take_zero, List.append_nil]
    · rwa [hdone, taken_zero]
  | case2 i stream hmissing stream' hread =>
    -- the stream ends only behind the last byte, and more than that is under way
    have hnone := (hl.read_ok hv (Nat.pos_of_ne_zero hmissing) hread).2.1 rfl
    rw [hnone] at hlen
    exact absurd (Nat.le_zero.mp hlen) hmissing
  | case3 i stream hmissing bytes stream' hread hbytes ih =>
    have hbound := ByteStream.length_of_read hread
    obtain ⟨⟨rest, hrest⟩, -, hv'⟩ := hl.read_ok hv (Nat.pos_of_ne_zero hmissing) hread
    have hdrop : (incoming v).drop bytes.length = rest := by
      rw [← hrest, List.drop_left]
    have htake : (incoming v).take i.missing = bytes ++ rest.take (i.missing - bytes.length) := by
      rw [← hrest, List.take_append, List.take_of_length_le hbound]
    -- what was read leaves the view, and as much less is missing
    obtain ⟨last, hlast, hcarries⟩ := ih (hv' hbytes) (by
      rw [incoming_taken, List.length_drop]
      exact Nat.sub_le_sub_right hlen _)
    refine ⟨last, ?_, ?_⟩
    · rw [hlast, incoming_taken, hdrop, htake]
      simp only [Incoming.absorb, List.append_assoc]
    · rw [taken_taken] at hcarries
      rwa [Incoming.absorb, Nat.add_sub_of_le hbound] at hcarries
  | case4 i stream hmissing e stream' hread hkind ih =>
    exact ih (hl.read_error hv (Nat.pos_of_ne_zero hmissing) hread).2 hlen
  | case5 i stream hmissing e stream' hread hkind =>
    exact absurd (hl.read_error hv (Nat.pos_of_ne_zero hmissing) hread).1 hkind

/-- Where fewer bytes are under way than are missing, the stream ends behind them. -/
theorem collect_short (hl : Lossless carries) {i : Incoming} {stream : σ} {v : V}
    (hv : carries stream v) (hlen : (incoming v).length < i.missing) :
    (i.collect stream).1 =
      .error (.endOfStream i.total (i.got.length + (incoming v).length)) := by
  fun_induction i.collect stream generalizing v with
  | case1 i stream hdone => omega
  | case2 i stream hmissing stream' hread =>
    rw [(hl.read_ok hv (Nat.pos_of_ne_zero hmissing) hread).2.1 rfl]
    rfl
  | case3 i stream hmissing bytes stream' hread hbytes ih =>
    have hbound := ByteStream.length_of_read hread
    obtain ⟨hfront, -, hv'⟩ := hl.read_ok hv (Nat.pos_of_ne_zero hmissing) hread
    have hle := hfront.length_le
    have hrest : (incoming (taken v bytes.length)).length < (i.absorb bytes).missing := by
      rw [incoming_taken, List.length_drop]
      exact Nat.sub_lt_sub_right hle hlen
    rw [ih (hv' hbytes) hrest, incoming_taken, List.length_drop]
    simp only [Incoming.absorb, Incoming.total, List.length_append]
    congr 2 <;> omega
  | case4 i stream hmissing e stream' hread hkind ih =>
    exact ih (hl.read_error hv (Nat.pos_of_ne_zero hmissing) hread).2 hlen
  | case5 i stream hmissing e stream' hread hkind =>
    exact absurd (hl.read_error hv (Nat.pos_of_ne_zero hmissing) hread).1 hkind

theorem receive (hl : Lossless carries) {stream : σ} {v : V} (hv : carries stream v) {n : Nat}
    (hlen : (incoming v).length = n) :
    ∃ stream', RemoteRegisters.receive stream n = (.ok (incoming v), stream') ∧
      carries stream' (taken v n) := by
  obtain ⟨stream', hreceive, hv'⟩ := hl.collect (i := .ofLength n) hv (Nat.le_of_eq hlen.symm)
  refine ⟨stream', hreceive.trans ?_, hv'⟩
  change (Except.ok ([] ++ (incoming v).take n), stream') = _
  rw [List.nil_append, List.take_of_length_le (Nat.le_of_eq hlen)]

end Lossless

/-! ### Scripts without faults -/

namespace Script

/-- The reads of a script deliver these bytes, in chunks that are not empty, and then the end of the
stream. -/
inductive Delivers : List ReadStep → List UInt8 → Prop where
  | spent : Delivers [] []
  | ended (later : List ReadStep) : Delivers (.endOfStream :: later) []
  | chunk {bytes rest : List UInt8} {later : List ReadStep} :
      bytes ≠ [] → Delivers later rest → Delivers (.data bytes :: later) (bytes ++ rest)

/-- A script that delivers these bytes and then ends, takes everything and flushes. -/
structure FaultFree (s : Script) (bytes : List UInt8) : Prop where
  delivers : Delivers s.reads bytes
  accepts : ∀ w ∈ s.writes, ∃ limit, 0 < limit ∧ w = .accept limit
  flushes : ∀ f ∈ s.flushes, f = .succeed

/-- What the one end of a script sees of it. -/
structure View where
  incoming : List UInt8
  sent : List UInt8

instance : Duplex View where
  incoming := View.incoming
  taken v n := { v with incoming := v.incoming.drop n }
  given v bytes := { v with sent := v.sent ++ bytes }
  incoming_taken v n := rfl
  taken_zero v := rfl
  taken_taken v m n := by rw [List.drop_drop]
  given_given v a b := by rw [List.append_assoc]

def Shows (s : Script) (v : View) : Prop :=
  s.FaultFree v.incoming ∧ s.sent = v.sent

theorem read_of_delivers {s s' : Script} {bytes : List UInt8} {n : Nat}
    {r : Except IoError (List UInt8)} (hd : Delivers s.reads bytes) (hn : 0 < n)
    (h : s.read n = (r, s')) :
    ∃ got, r = .ok got ∧ got <+: bytes ∧ (got = [] → bytes = []) ∧
      (got ≠ [] → Delivers s'.reads (bytes.drop got.length)) := by
  unfold read at h
  cases hreads : s.reads with
  | nil =>
    rw [hreads] at hd h
    cases hd
    cases h
    exact ⟨[], rfl, List.prefix_refl _, fun _ => rfl, fun hne => absurd rfl hne⟩
  | cons step later =>
    rw [hreads] at hd h
    cases hd with
    | ended =>
      cases h
      exact ⟨[], rfl, List.prefix_refl _, fun _ => rfl, fun hne => absurd rfl hne⟩
    | @chunk chunk rest _ hchunk hrest =>
      dsimp only at h
      split at h
      · cases h
        refine ⟨chunk, rfl, List.prefix_append _ _, fun hnil => absurd hnil hchunk, fun _ => ?_⟩
        rwa [List.drop_left]
      · rename_i hlong
        -- the chunk does not fit into the read, and its end stays for the next one
        cases h
        have hlen : (chunk.take n).length = n := by
          rw [List.length_take]
          omega
        have hdrop : (chunk ++ rest).drop n = chunk.drop n ++ rest :=
          List.drop_append_of_le_length (by omega)
        refine ⟨chunk.take n, rfl, ?_, fun hnil => ?_, fun _ => ?_⟩
        · exact (List.take_prefix n chunk).trans (List.prefix_append _ _)
        · rw [hnil] at hlen
          exact absurd hlen (Nat.ne_of_lt hn)
        · rw [hlen, hdrop]
          refine .chunk (fun hnil => hlong ?_) hrest
          exact List.drop_eq_nil_iff.mp hnil

theorem write_of_accepts {s s' : Script} {bytes : List UInt8} {r : Except IoError Nat}
    (haccepts : ∀ w ∈ s.writes, ∃ limit, 0 < limit ∧ w = .accept limit) (hbytes : bytes ≠ [])
    (h : s.write bytes = (r, s')) : ∃ n, 0 < n ∧ r = .ok n := by
  have hpos := List.length_pos_iff.mpr hbytes
  unfold write at h
  cases hwrites : s.writes with
  | nil =>
    rw [hwrites] at h
    cases h
    exact ⟨bytes.length, hpos, rfl⟩
  | cons step later =>
    rw [hwrites] at h haccepts
    obtain ⟨limit, hlimit, rfl⟩ := haccepts step List.mem_cons_self
    cases h
    exact ⟨min limit bytes.length, Nat.lt_min.mpr ⟨hlimit, hpos⟩, rfl⟩

theorem flush_of_succeed {s s' : Script} {r : Except IoError Unit}
    (hflushes : ∀ f ∈ s.flushes, f = .succeed) (h : s.flush = (r, s')) : r = .ok () := by
  unfold flush at h
  cases hsteps : s.flushes with
  | nil =>
    rw [hsteps] at h
    cases h
    rfl
  | cons step later =>
    rw [hsteps] at h hflushes
    rw [hflushes step List.mem_cons_self] at h
    cases h
    rfl

/-- A script without faults loses nothing. -/
theorem lossless_shows : Lossless Shows where
  read_ok {s s' v n got} hv hn h := by
    obtain ⟨⟨hdelivers, haccepts, hflushes⟩, hsent⟩ := hv
    obtain ⟨got', hok, hfront, hnil, hrest⟩ := read_of_delivers hdelivers hn h
    cases hok
    obtain ⟨hw, hf, hs⟩ := frame_of_read h
    exact ⟨hfront, hnil, fun hne => ⟨⟨hrest hne, hw ▸ haccepts, hf ▸ hflushes⟩, hs.trans hsent⟩⟩
  read_error {s s' v n e} hv hn h := by
    obtain ⟨got, hok, -⟩ := read_of_delivers hv.1.delivers hn h
    cases hok
  write_ok {s s' v bytes n} hv hbytes h := by
    obtain ⟨⟨hdelivers, haccepts, hflushes⟩, hsent⟩ := hv
    obtain ⟨n', hn, hok⟩ := write_of_accepts haccepts hbytes h
    cases hok
    obtain ⟨hr, hf, hw⟩ := frame_of_write h
    refine ⟨hn, ⟨hr ▸ hdelivers, fun w hmem => ?_, hf ▸ hflushes⟩, ?_⟩
    · rw [hw] at hmem
      exact haccepts w (List.mem_of_mem_tail hmem)
    · rw [sent_of_write h, hsent]
      rfl
  write_error {s s' v bytes e} hv hbytes h := by
    obtain ⟨n, -, hok⟩ := write_of_accepts hv.1.accepts hbytes h
    cases hok
  flush_ok {s s' v r} hv h := by
    obtain ⟨⟨hdelivers, haccepts, hflushes⟩, hsent⟩ := hv
    obtain ⟨hr, hw, hs, hf⟩ := frame_of_flush h
    refine ⟨flush_of_succeed hflushes h, ⟨hr ▸ hdelivers, hw ▸ haccepts, fun f hmem => ?_⟩, ?_⟩
    · rw [hf] at hmem
      exact hflushes f (List.mem_of_mem_tail hmem)
    · exact hs.trans hsent

end Script

end RemoteRegisters
