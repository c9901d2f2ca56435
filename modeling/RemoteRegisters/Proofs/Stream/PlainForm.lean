import RemoteRegisters.Proofs.Stream.Accounting
import RemoteRegisters.Proofs.Stream.Calls
import RemoteRegisters.Proofs.Stream.Indistinguishable

/-!
# The plain form of a script

A script is compared with its plain form, in which no call is interrupted and
each byte comes alone. A transfer over a script and one over its plain form come
to the same, and leave streams of which again one is the plain form of the other
(`Script.faithful_plain`). Where no write fails, the steps of the writes can be
left out altogether (`Script.faithful_eager`).

## Main definitions

- `Script.plain`, `Script.eager` — the scripts that a script is compared with
- `Script.Faithful` — a transfer over the image of a script does what it does over the script
-/

namespace RemoteRegisters

namespace ReadStep

/-- What a step amounts to: nothing if it is an interruption, its bytes one at a time if it delivers
some, else itself. -/
def pieces : ReadStep → List ReadStep
  | data [] => [data []]
  | data (b :: bytes) => (b :: bytes).map fun b => data [b]
  | error e => if e.kind = .interrupted then [] else [error e]
  | endOfStream => [endOfStream]

theorem pieces_data {bytes : List UInt8} (h : bytes ≠ []) :
    (data bytes).pieces = bytes.map fun b => data [b] := by
  cases bytes with
  | nil => exact absurd rfl h
  | cons b bytes => rfl

theorem flatMap_bytes_pieces (r : ReadStep) : r.pieces.flatMap bytes = r.bytes := by
  match r with
  | data [] => rfl
  | data (b :: later) =>
    simp only [pieces, List.flatMap_map, bytes]
    exact List.flatMap_singleton' _
  | error e =>
    simp only [pieces]
    split <;> rfl
  | endOfStream => rfl

end ReadStep

namespace WriteStep

def isInterruption : WriteStep → Bool
  | accept _ => false
  | error e => e.kind = .interrupted

/-- A write takes a byte at least, or is interrupted. -/
def Takes : WriteStep → Prop
  | accept limit => 1 ≤ limit
  | error e => e.kind = .interrupted

instance : DecidablePred Takes
  | accept limit => inferInstanceAs (Decidable (1 ≤ limit))
  | error e => inferInstanceAs (Decidable (e.kind = .interrupted))

/-- No write fails. -/
def Smooth (steps : List WriteStep) : Prop :=
  ∀ w ∈ steps, w.Takes

instance : DecidablePred Smooth :=
  fun steps => inferInstanceAs (Decidable (∀ w ∈ steps, w.Takes))

def settled (steps : List WriteStep) : List WriteStep :=
  steps.filter fun w => !w.isInterruption

theorem smooth_settled_iff {steps : List WriteStep} : Smooth (settled steps) ↔ Smooth steps := by
  refine ⟨fun h w hw => ?_, fun h w hw => h w (List.mem_of_mem_filter hw)⟩
  by_cases hsettled : w ∈ settled steps
  · exact h w hsettled
  · -- what is left out is an interruption
    cases w with
    | accept limit => exact absurd (List.mem_filter.mpr ⟨hw, rfl⟩) hsettled
    | error e =>
      by_contra hkind
      exact hsettled (List.mem_filter.mpr ⟨hw, by simpa [isInterruption, Takes] using hkind⟩)

end WriteStep

namespace Script

/-! ### Scripts in plain form -/

/-- The script without interruptions, with each byte for itself. -/
def plain (s : Script) : Script :=
  { s with reads := s.reads.flatMap ReadStep.pieces, writes := WriteStep.settled s.writes }

theorem undelivered_plain (s : Script) : s.plain.undelivered = s.undelivered := by
  unfold undelivered plain
  rw [List.flatMap_assoc]
  exact List.flatMap_congr fun r _ => r.flatMap_bytes_pieces

theorem plain_of_flush {s s' : Script} {r : Except IoError Unit}
    (h : s.flush = (r, s')) : s.plain.flush = (r, s'.plain) := by
  unfold flush at h ⊢
  simp only [plain]
  split at h <;> rename_i hflushes <;> cases h <;> simp only [hflushes]

/-- A write does on the plain form what it does on the script, unless it is interrupted. -/
theorem plain_of_write {s s' : Script} {bytes : List UInt8} {r : Except IoError Nat}
    (h : s.write bytes = (r, s')) (hkind : ∀ e, r = .error e → e.kind ≠ .interrupted) :
    s.plain.write bytes = (r, s'.plain) := by
  unfold write at h ⊢
  simp only [plain, WriteStep.settled]
  split at h <;> rename_i hwrites <;> cases h <;> rw [hwrites]
  · rfl
  · rfl
  · rename_i e later
    rw [List.filter_cons_of_pos (by simpa [WriteStep.isInterruption] using hkind e rfl)]

theorem plain_of_write_interrupted {s s' : Script} {bytes : List UInt8} {e : IoError}
    (h : s.write bytes = (.error e, s')) (hkind : e.kind = .interrupted) :
    s'.plain = s.plain := by
  unfold write at h
  split at h <;> rename_i hwrites <;> cases h
  simp only [plain, WriteStep.settled, hwrites]
  rw [List.filter_cons_of_neg (by simpa [WriteStep.isInterruption] using hkind)]

/-- The script with some bytes in front, each for itself. -/
def behind (s : Script) (bytes : List UInt8) : Script :=
  { s with reads := (bytes.map fun b => .data [b]) ++ s.reads }

/-- What a read delivers stands in front in the plain form. -/
theorem plain_of_read {s s' : Script} {n : Nat} {bytes : List UInt8}
    (h : s.read n = (.ok bytes, s')) (hbytes : bytes ≠ []) :
    s.plain = s'.plain.behind bytes := by
  unfold read at h
  split at h <;> rename_i hreads
  · cases h
    exact absurd rfl hbytes
  · rename_i whole later
    split at h
    · cases h
      simp only [plain, behind, hreads, List.flatMap_cons, ReadStep.pieces_data hbytes]
    · rename_i hlong
      cases h
      -- the rest of the step delivers some bytes, too
      have hrest : whole.drop n ≠ [] := by
        rw [Ne, List.drop_eq_nil_iff]
        exact hlong
      have hwhole : whole ≠ [] := by
        rintro rfl
        exact hbytes List.take_nil
      simp only [plain, behind, hreads, List.flatMap_cons, ReadStep.pieces_data hrest,
        ReadStep.pieces_data hwhole]
      rw [← List.append_assoc, ← List.map_append, List.take_append_drop]
  · cases h
  · cases h
    exact absurd rfl hbytes

theorem plain_of_read_end {s s' : Script} {n : Nat} (h : s.read n = (.ok [], s')) (hn : n ≠ 0) :
    s.plain.read n = (.ok [], s'.plain) := by
  unfold read at h
  split at h <;> rename_i hreads
  · cases h
    simp only [read, plain, hreads, List.flatMap_nil]
  · split at h
    · cases h
      simp only [read, plain, hreads, List.flatMap_cons, ReadStep.pieces, List.singleton_append,
        List.length_nil, Nat.zero_le, if_true]
    · rename_i hlong
      -- a read of some bytes does not deliver none of those that are there
      have hlength := congrArg (fun outcome => deliveredBytes outcome.1) h
      simp only [deliveredBytes, List.length_take, List.length_nil] at hlength
      omega
  · cases h
  · cases h
    simp only [read, plain, hreads, List.flatMap_cons, ReadStep.pieces, List.singleton_append]

theorem exists_of_read_error {s s' : Script} {n : Nat} {e : IoError}
    (h : s.read n = (.error e, s')) :
    ∃ later, s.reads = .error e :: later ∧ s' = { s with reads := later } := by
  unfold read at h
  split at h <;> rename_i hreads
  · cases h
  · split at h <;> cases h
  · cases h
    exact ⟨_, hreads, rfl⟩
  · cases h

theorem plain_of_read_error {s s' : Script} {n : Nat} {e : IoError}
    (h : s.read n = (.error e, s')) (hkind : e.kind ≠ .interrupted) :
    s.plain.read n = (.error e, s'.plain) := by
  obtain ⟨later, hreads, rfl⟩ := exists_of_read_error h
  simp only [read, plain, hreads, List.flatMap_cons, ReadStep.pieces, if_neg hkind,
    List.singleton_append]

theorem plain_of_read_interrupted {s s' : Script} {n : Nat} {e : IoError}
    (h : s.read n = (.error e, s')) (hkind : e.kind = .interrupted) : s'.plain = s.plain := by
  obtain ⟨later, hreads, rfl⟩ := exists_of_read_error h
  simp only [plain, hreads, List.flatMap_cons, ReadStep.pieces, if_pos hkind, List.nil_append]

/-- A receive takes single bytes one after the other. -/
theorem collect_behind {i : Incoming} (s : Script) {bytes : List UInt8}
    (h : bytes.length ≤ i.missing) :
    i.collect (s.behind bytes) = (i.absorb bytes).collect s := by
  induction bytes generalizing i with
  | nil =>
    have hsame : i.absorb [] = i := by
      simp only [Incoming.absorb, List.length_nil, Nat.sub_zero, List.append_nil]
    rw [hsame]
    rfl
  | cons b bytes ih =>
    rw [List.length_cons] at h
    have hread : ByteStream.read (s.behind (b :: bytes)) i.missing = (.ok [b], s.behind bytes) :=
      if_pos (show 1 ≤ i.missing by omega)
    have habsorb : (i.absorb [b]).absorb bytes = i.absorb (b :: bytes) := by
      simp only [Incoming.absorb, List.length_cons, List.length_nil, List.append_assoc,
        List.singleton_append]
      congr 1
      omega
    have hfits : bytes.length ≤ (i.absorb [b]).missing := by
      change bytes.length ≤ i.missing - 1
      omega
    rw [Incoming.collect_of_read (by omega) hread, if_neg (List.cons_ne_nil b []), ih hfits, habsorb]

/-! ### Transfers over the image of a script -/

/-- A transfer over the image of a script does what it does over the script, and leaves the image of
what it leaves there. -/
structure Faithful (P : Script → Prop) (f : Script → Script) : Prop where
  transmit : ∀ {s}, P s → ∀ o : Outgoing,
    o.transmit (f s) = ((o.transmit s).1, f (o.transmit s).2) ∧ P (o.transmit s).2
  collect : ∀ {s}, P s → ∀ i : Incoming,
    i.collect (f s) = ((i.collect s).1, f (i.collect s).2) ∧ P (i.collect s).2

/-- No transfer tells scripts apart that have the same image. -/
theorem Faithful.indistinguishable {P : Script → Prop} {f : Script → Script} (hf : Faithful P f) :
    Indistinguishable fun s t => P s ∧ P t ∧ f s = f t where
  sends := by
    rintro s t ⟨hs, ht, hsame⟩ bytes
    obtain ⟨himage, hs'⟩ := hf.transmit hs (.ofBytes bytes)
    obtain ⟨himage', ht'⟩ := hf.transmit ht (.ofBytes bytes)
    rw [hsame] at himage
    obtain ⟨hresult, hlater⟩ := Prod.mk.inj (himage.symm.trans himage')
    exact ⟨hresult, hs', ht', hlater⟩
  receives := by
    rintro s t ⟨hs, ht, hsame⟩ n
    obtain ⟨himage, hs'⟩ := hf.collect hs (.ofLength n)
    obtain ⟨himage', ht'⟩ := hf.collect ht (.ofLength n)
    rw [hsame] at himage
    obtain ⟨hresult, hlater⟩ := Prod.mk.inj (himage.symm.trans himage')
    exact ⟨hresult, hs', ht', hlater⟩

theorem Faithful.comp {P Q : Script → Prop} {f g : Script → Script} (hg : Faithful Q g)
    (hf : Faithful P f) : Faithful (fun s => P s ∧ Q (f s)) (g ∘ f) where
  transmit := by
    rintro s ⟨hP, hQ⟩ o
    obtain ⟨himage, hP'⟩ := hf.transmit hP o
    obtain ⟨himage', hQ'⟩ := hg.transmit hQ o
    rw [himage] at himage' hQ'
    exact ⟨himage', hP', hQ'⟩
  collect := by
    rintro s ⟨hP, hQ⟩ i
    obtain ⟨himage, hP'⟩ := hf.collect hP i
    obtain ⟨himage', hQ'⟩ := hg.collect hQ i
    rw [himage] at himage' hQ'
    exact ⟨himage', hP', hQ'⟩

theorem transmit_plain (o : Outgoing) (s : Script) :
    o.transmit s.plain = ((o.transmit s).1, (o.transmit s).2.plain) := by
  fun_induction o.transmit s with
  | case1 o s hdone s' hflush => rw [Outgoing.transmit_of_flush hdone (plain_of_flush hflush)]; rfl
  | case2 o s hdone e s' hflush =>
    rw [Outgoing.transmit_of_flush hdone (plain_of_flush hflush)]
    rfl
  | case3 o s hrest s' hwrite =>
    rw [Outgoing.transmit_of_write hrest (plain_of_write hwrite fun _ h => by cases h), if_pos rfl]
  | case4 o s hrest n s' hwrite hn ih =>
    rw [Outgoing.transmit_of_write hrest (plain_of_write hwrite fun _ h => by cases h), if_neg hn, ih]
  | case5 o s hrest e s' hwrite hkind ih =>
    rw [← plain_of_write_interrupted hwrite hkind]
    exact ih
  | case6 o s hrest e s' hwrite hkind =>
    have hplain := plain_of_write hwrite fun _ h => by cases h; exact hkind
    rw [Outgoing.transmit_of_write_error hrest hplain, if_neg hkind]

theorem collect_plain (i : Incoming) (s : Script) :
    i.collect s.plain = ((i.collect s).1, (i.collect s).2.plain) := by
  fun_induction i.collect s with
  | case1 i s hdone => exact Incoming.collect_of_done hdone
  | case2 i s hmissing s' hread =>
    rw [Incoming.collect_of_read hmissing (plain_of_read_end hread hmissing), if_pos rfl]
  | case3 i s _ bytes s' hread hbytes ih =>
    rw [plain_of_read hread hbytes, collect_behind _ (ByteStream.length_of_read hread), ih]
  | case4 i s _ e s' hread hkind ih =>
    rw [← plain_of_read_interrupted hread hkind]
    exact ih
  | case5 i s hmissing e s' hread hkind =>
    rw [Incoming.collect_of_read_error hmissing (plain_of_read_error hread hkind), if_neg hkind]

theorem faithful_plain : Faithful (fun _ => True) plain where
  transmit _ o := ⟨transmit_plain o _, trivial⟩
  collect _ i := ⟨collect_plain i _, trivial⟩

/-! ### Scripts on which no write fails -/

/-- The script without the steps of its writes: each takes all. -/
def eager (s : Script) : Script :=
  { s with writes := [] }

theorem undelivered_eager (s : Script) : s.eager.undelivered = s.undelivered :=
  rfl

theorem eager_of_flush {s s' : Script} {r : Except IoError Unit}
    (h : s.flush = (r, s')) : s.eager.flush = (r, s'.eager) := by
  unfold flush at h ⊢
  simp only [eager]
  split at h <;> rename_i hflushes <;> cases h <;> simp only [hflushes]

theorem eager_of_read {s s' : Script} {n : Nat} {r : Except IoError (List UInt8)}
    (h : s.read n = (r, s')) : s.eager.read n = (r, s'.eager) := by
  unfold read at h ⊢
  simp only [eager]
  split at h <;> rename_i hreads
  · cases h
    simp only [hreads]
  · split at h <;> rename_i hlen <;> cases h <;> simp only [hlen, if_true, if_false]
  · cases h
    rfl
  · cases h
    rfl

/-- A write that does not fail takes a byte, or is interrupted. -/
theorem takes_of_write {s s' : Script} {bytes : List UInt8} {r : Except IoError Nat}
    (hsmooth : WriteStep.Smooth s.writes) (hbytes : bytes ≠ [])
    (h : s.write bytes = (r, s')) :
    (∃ n, r = .ok n ∧ n ≠ 0) ∨ ∃ e, r = .error e ∧ e.kind = .interrupted := by
  have hlength := List.length_pos_iff.mpr hbytes
  unfold write at h
  split at h <;> rename_i hwrites <;> cases h
  · exact .inl ⟨_, rfl, Nat.ne_of_gt hlength⟩
  · rename_i limit later
    have hlimit : 1 ≤ limit := hsmooth (.accept limit) (by rw [hwrites]; exact List.mem_cons_self)
    exact .inl ⟨_, rfl, by omega⟩
  · rename_i e later
    exact .inr ⟨e, rfl, hsmooth (.error e) (by rw [hwrites]; exact List.mem_cons_self)⟩

theorem smooth_of_write {s s' : Script} {bytes : List UInt8} {r : Except IoError Nat}
    (hsmooth : WriteStep.Smooth s.writes) (h : s.write bytes = (r, s')) :
    WriteStep.Smooth s'.writes := by
  rw [(frame_of_write h).2.2]
  exact fun w hw => hsmooth w (List.mem_of_mem_tail hw)

/-- A send over a script without steps for its writes is taken at once, and flushed. -/
theorem transmit_of_eager {s : Script} (h : s.writes = []) (o : Outgoing) :
    o.transmit s =
      ((flush { s with sent := s.sent ++ o.rest }).1.mapError .io,
        (flush { s with sent := s.sent ++ o.rest }).2) := by
  by_cases hdone : o.rest = []
  · rw [hdone, List.append_nil]
    exact Outgoing.transmit_of_flush hdone rfl
  · have hwrite : s.write o.rest = (.ok o.rest.length, { s with sent := s.sent ++ o.rest }) := by
      simp only [write, h]
    rw [Outgoing.transmit_of_write hdone hwrite, if_neg (mt List.length_eq_zero_iff.mp hdone)]
    exact Outgoing.transmit_of_flush List.drop_length rfl

theorem transmit_eager (o : Outgoing) {s : Script} (hsmooth : WriteStep.Smooth s.writes) :
    o.transmit s.eager = ((o.transmit s).1, (o.transmit s).2.eager) ∧
      WriteStep.Smooth (o.transmit s).2.writes := by
  fun_induction o.transmit s with
  | case1 o s hdone s' hflush =>
    rw [Outgoing.transmit_of_flush hdone (eager_of_flush hflush), (frame_of_flush hflush).2.1]
    exact ⟨rfl, hsmooth⟩
  | case2 o s hdone e s' hflush =>
    rw [Outgoing.transmit_of_flush hdone (eager_of_flush hflush), (frame_of_flush hflush).2.1]
    exact ⟨rfl, hsmooth⟩
  | case3 o s hrest s' hwrite =>
    obtain ⟨n, hn, hne⟩ | ⟨e, he, -⟩ := takes_of_write hsmooth hrest hwrite
    · cases hn
      exact absurd rfl hne
    · cases he
  | case4 o s hrest n s' hwrite hn ih =>
    obtain ⟨hsend, hlater⟩ := ih (smooth_of_write hsmooth hwrite)
    refine ⟨?_, hlater⟩
    -- the part that this call takes and the rest are taken at once by the eager script
    obtain ⟨hreads, hflushes, -⟩ := frame_of_write hwrite
    have hsame : { s.eager with sent := s.eager.sent ++ o.rest } =
        { s'.eager with sent := s'.eager.sent ++ (o.advance n).rest } := by
      simp only [eager, hreads, hflushes, sent_of_write hwrite, Outgoing.advance, List.append_assoc,
        List.take_append_drop]
    rw [← hsend, transmit_of_eager rfl, transmit_of_eager rfl, hsame]
  | case5 o s hrest e s' hwrite hkind ih =>
    obtain ⟨hreads, hflushes, -⟩ := frame_of_write hwrite
    have hsame : s.eager = s'.eager := by
      simp only [eager, hreads, hflushes, sent_of_write_error hwrite]
    rw [hsame]
    exact ih (smooth_of_write hsmooth hwrite)
  | case6 o s hrest e s' hwrite hkind =>
    obtain ⟨n, hn, -⟩ | ⟨e, he, hinterrupted⟩ := takes_of_write hsmooth hrest hwrite
    · cases hn
    · cases he
      exact absurd hinterrupted hkind

theorem collect_eager (i : Incoming) {s : Script} (hsmooth : WriteStep.Smooth s.writes) :
    i.collect s.eager = ((i.collect s).1, (i.collect s).2.eager) ∧
      WriteStep.Smooth (i.collect s).2.writes := by
  have hkept {s s' : Script} {n : Nat} {r : Except IoError (List UInt8)}
      (h : s.read n = (r, s')) (hs : WriteStep.Smooth s.writes) :
      WriteStep.Smooth s'.writes := by
    rwa [(frame_of_read h).1]
  fun_induction i.collect s with
  | case1 i s hdone => exact ⟨Incoming.collect_of_done hdone, hsmooth⟩
  | case2 i s hmissing s' hread =>
    rw [Incoming.collect_of_read hmissing (eager_of_read hread), if_pos rfl]
    exact ⟨rfl, hkept hread hsmooth⟩
  | case3 i s hmissing bytes s' hread hbytes ih =>
    rw [Incoming.collect_of_read hmissing (eager_of_read hread), if_neg hbytes]
    exact ih (hkept hread hsmooth)
  | case4 i s hmissing e s' hread hkind ih =>
    rw [Incoming.collect_of_read_error hmissing (eager_of_read hread), if_pos hkind]
    exact ih (hkept hread hsmooth)
  | case5 i s hmissing e s' hread hkind =>
    rw [Incoming.collect_of_read_error hmissing (eager_of_read hread), if_neg hkind]
    exact ⟨rfl, hkept hread hsmooth⟩

theorem faithful_eager : Faithful (fun s => WriteStep.Smooth s.writes) eager where
  transmit hs o := transmit_eager o hs
  collect hs i := collect_eager i hs

end Script

end RemoteRegisters
