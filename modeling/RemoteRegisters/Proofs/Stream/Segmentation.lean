import Mathlib.Logic.Relation
import RemoteRegisters.Proofs.Stream.PlainForm

/-!
# Segmentation and interruption are invisible

How a stream cuts its data into pieces, how often it interrupts a call, and how
much it takes of a write do not matter to a bridge or a session
(`Script.Alike.same_course`). All other steps of a script may be arbitrary. Two
scripts that differ only in such things have the same plain form, but for the
steps of their writes where none of them fails.

## Main definitions

- `ReadStep.Change`, `WriteStep.Change` — the changes that do not matter, one at a time
- `Script.Alike` — two scripts that differ in segmentation and interruptions only
- `Bridge.Sight` — what can be seen of an access from both ends of the stream
-/

namespace RemoteRegisters

namespace ReadStep

/-- Some adjacent steps that all deliver bytes give way to others that deliver the same bytes, or an
interrupted call comes in. -/
inductive Change : List ReadStep → List ReadStep → Prop where
  | regroup {chunks chunks' : List (List UInt8)} (before after : List ReadStep)
      (hchunks : ∀ chunk ∈ chunks, chunk ≠ []) (hchunks' : ∀ chunk ∈ chunks', chunk ≠ [])
      (hsame : chunks.flatten = chunks'.flatten) :
      Change (before ++ chunks.map data ++ after) (before ++ chunks'.map data ++ after)
  | interrupt {e : IoError} (before after : List ReadStep) (hkind : e.kind = .interrupted) :
      Change (before ++ after) (before ++ error e :: after)

theorem flatMap_pieces_data {chunks : List (List UInt8)} (h : ∀ chunk ∈ chunks, chunk ≠ []) :
    (chunks.map data).flatMap pieces = chunks.flatten.map fun b => data [b] := by
  induction chunks with
  | nil => rfl
  | cons chunk chunks ih =>
    obtain ⟨hchunk, hchunks⟩ := List.forall_mem_cons.mp h
    rw [List.map_cons, List.flatMap_cons, pieces_data hchunk, ih hchunks, List.flatten_cons,
      List.map_append]

/-- A change of the steps does not change what they amount to. -/
theorem Change.pieces_eq {steps steps' : List ReadStep} (h : Change steps steps') :
    steps.flatMap pieces = steps'.flatMap pieces := by
  cases h with
  | regroup before after hchunks hchunks' hsame =>
    simp only [List.flatMap_append, flatMap_pieces_data hchunks, flatMap_pieces_data hchunks', hsame]
  | interrupt before after hkind =>
    rw [List.flatMap_append, List.flatMap_append, List.flatMap_cons, pieces, if_pos hkind,
      List.nil_append]

end ReadStep

namespace WriteStep

/-- An interrupted call comes in, or other limits stand where no write fails. -/
inductive Change : List WriteStep → List WriteStep → Prop where
  | interrupt {e : IoError} (before after : List WriteStep) (hkind : e.kind = .interrupted) :
      Change (before ++ after) (before ++ error e :: after)
  | limits {steps steps' : List WriteStep} (h : Smooth steps) (h' : Smooth steps') :
      Change steps steps'

/-- Two lists of steps come to the same: they differ in interruptions only, or none of them fails. -/
def Equivalent (steps steps' : List WriteStep) : Prop :=
  settled steps = settled steps' ∨ (Smooth steps ∧ Smooth steps')

theorem Equivalent.smooth_iff {steps steps' : List WriteStep} (h : Equivalent steps steps') :
    Smooth steps ↔ Smooth steps' := by
  obtain hsame | ⟨hsmooth, hsmooth'⟩ := h
  · rw [← smooth_settled_iff, hsame, smooth_settled_iff]
  · exact iff_of_true hsmooth hsmooth'

theorem Change.equivalent {steps steps' : List WriteStep} (h : Change steps steps') :
    Equivalent steps steps' := by
  cases h with
  | interrupt before after hkind =>
    left
    simp only [settled, List.filter_append, List.filter_cons, isInterruption, hkind, decide_true,
      Bool.not_true, Bool.false_eq_true, if_false]
  | limits h h' => exact .inr ⟨h, h'⟩

theorem equivalence_equivalent : Equivalence Equivalent where
  refl steps := .inl rfl
  symm h := h.imp Eq.symm And.symm
  trans {xs ys zs} hxy hyz := by
    obtain hsame | ⟨hx, hy⟩ := id hxy
    · obtain hsame' | ⟨hy, hz⟩ := hyz
      · exact .inl (hsame.trans hsame')
      · exact .inr ⟨hxy.smooth_iff.mpr hy, hz⟩
    · exact .inr ⟨hx, hyz.smooth_iff.mp hy⟩

end WriteStep

namespace Script

/-- Two scripts that differ only in how data is cut into pieces, in interrupted reads and writes, and
in the limits of the writes where none of them fails. -/
structure Alike (s t : Script) : Prop where
  reads : Relation.EqvGen ReadStep.Change s.reads t.reads
  writes : Relation.EqvGen WriteStep.Change s.writes t.writes
  flushes : s.flushes = t.flushes
  sent : s.sent = t.sent

/-- Scripts that differ in segmentation and interruptions are related by a relation that no transfer
tells apart, and along which nothing changes that can be seen of a script. -/
theorem Alike.exists_indistinguishable {s t : Script} (h : s.Alike t) :
    ∃ R : Script → Script → Prop, Indistinguishable R ∧ R s t ∧
      ∀ s' t', R s' t' → s'.sent = t'.sent ∧ s'.undelivered = t'.undelivered := by
  have hreads : s.reads.flatMap ReadStep.pieces = t.reads.flatMap ReadStep.pieces :=
    congrArg (Quot.lift (List.flatMap ReadStep.pieces) fun _ _ => ReadStep.Change.pieces_eq)
      (Quot.eqvGen_sound h.reads)
  have hwrites : WriteStep.Equivalent s.writes t.writes :=
    WriteStep.equivalence_equivalent.eqvGen_iff.mp
      (Relation.EqvGen.mono (fun _ _ => WriteStep.Change.equivalent) _ _ h.writes)
  obtain hsettled | ⟨hsmooth, hsmooth'⟩ := hwrites
  · -- the plain forms are the same
    refine ⟨_, faithful_plain.indistinguishable, ⟨trivial, trivial, ?_⟩, ?_⟩
    · simp only [plain, hreads, hsettled, h.flushes, h.sent]
    · rintro s' t' ⟨-, -, hsame⟩
      have hsent := congrArg Script.sent hsame
      refine ⟨hsent, ?_⟩
      rw [← undelivered_plain, hsame, undelivered_plain]
  · -- the plain forms are the same but for the steps of the writes
    refine ⟨_, (faithful_eager.comp faithful_plain).indistinguishable, ⟨?_, ?_, ?_⟩, ?_⟩
    · exact ⟨trivial, WriteStep.smooth_settled_iff.mpr hsmooth⟩
    · exact ⟨trivial, WriteStep.smooth_settled_iff.mpr hsmooth'⟩
    · simp only [Function.comp_apply, eager, plain, hreads, h.flushes, h.sent]
    · rintro s' t' ⟨-, -, hsame⟩
      have hsent := congrArg Script.sent hsame
      refine ⟨hsent, ?_⟩
      have hundelivered := congrArg Script.undelivered hsame
      rwa [Function.comp_apply, Function.comp_apply, undelivered_eager, undelivered_eager,
        undelivered_plain, undelivered_plain] at hundelivered

end Script

/-- What can be seen of an access: the answer and the log, what the bridge counts afterwards, and the
bytes that have come and gone on the stream. -/
structure Bridge.Sight where
  answer : Answer
  log : List Event
  faults : Nat
  broken : Bool
  hookCalls : Nat
  sent : List UInt8
  undelivered : List UInt8
  deriving DecidableEq, Repr

def Bridge.sight (o : Outcome (Bridge Script) Answer) : Bridge.Sight where
  answer := o.answer
  log := o.log
  faults := o.state.faults
  broken := o.state.broken
  hookCalls := o.state.hookCalls
  sent := o.state.stream.sent
  undelivered := o.state.stream.undelivered

/-- Segmentation and interruption are invisible. Let two scripts differ only in how data is cut into
pieces, in interrupted reads and writes, and in the limits of the writes where none of them fails. Then
a session that is run on either ends in the same state, and with the same bytes sent and left; and the
same can be seen of each of the accesses to a bridge over either. -/
theorem Script.Alike.same_course {s t : Script} (h : s.Alike t) :
    (∀ session : Session,
      (session.run s).1 = (session.run t).1 ∧
        (session.run s).2.sent = (session.run t).2.sent ∧
        (session.run s).2.undelivered = (session.run t).2.undelivered) ∧
      ∀ (b : Bridge Script) (cs : List Call),
        ({ b with stream := s }.performAll cs).map Bridge.sight =
          ({ b with stream := t }.performAll cs).map Bridge.sight := by
  obtain ⟨R, hR, hst, hvisible⟩ := h.exists_indistinguishable
  refine ⟨fun session => ?_, fun b cs => ?_⟩
  · obtain ⟨hsession, hstreams⟩ := hR.run hst session
    exact ⟨hsession, hvisible _ _ hstreams⟩
  · have halike : Bridge.Alike R { b with stream := s } { b with stream := t } :=
      ⟨hst, rfl, rfl, rfl, rfl⟩
    have hall := hR.performAll halike cs
    generalize { b with stream := s }.performAll cs = os at hall
    generalize { b with stream := t }.performAll cs = os' at hall
    induction hall with
    | nil => rfl
    | cons hfirst _ ih =>
      obtain ⟨hsent, hundelivered⟩ := hvisible _ _ hfirst.state.stream
      rw [List.map_cons, List.map_cons, ih]
      simp only [Bridge.sight, hfirst.answer, hfirst.log, hfirst.state.faults, hfirst.state.broken,
        hfirst.state.hookCalls, hsent, hundelivered]

/-- A response that comes in two pieces with an interruption between them, over a stream that takes
single bytes, is read like one that comes at once. -/
theorem Script.same_course_split_response :
    let interruption : IoError := ⟨.interrupted, none⟩
    let s : Script :=
      { reads := [.data [1, 0, 0, 0]], writes := [.accept 3, .accept 20], flushes := [] }
    let t : Script :=
      { reads := [.data [1], .error interruption, .data [0, 0, 0]]
        writes := [.error interruption, .accept 1, .accept 1]
        flushes := [] }
    let cs : List Call := [.read 4 4, .read 4 4]
    s.Alike t ∧
      (Bridge.performAll { stream := s } cs).map Bridge.sight =
        (Bridge.performAll { stream := t } cs).map Bridge.sight ∧
      (Bridge.performAll { stream := s } cs).map Outcome.answer = [.ok (some 1), .ok (some 0)] := by
  intro interruption s t cs
  have hreads : Relation.EqvGen ReadStep.Change s.reads t.reads :=
    .trans _ _ _
      (.rel _ _ (@ReadStep.Change.regroup [[1, 0, 0, 0]] [[1], [0, 0, 0]] [] []
        (by decide) (by decide) rfl))
      (.rel _ _ (.interrupt [.data [1]] [.data [0, 0, 0]] rfl))
  have hwrites : Relation.EqvGen WriteStep.Change s.writes t.writes :=
    .rel _ _ (.limits (by decide) (by decide))
  have halike : s.Alike t := ⟨hreads, hwrites, rfl, rfl⟩
  refine ⟨halike, halike.same_course.2 { stream := s } cs, ?_⟩
  simp only [s, cs]
  cbv

end RemoteRegisters
