import RemoteRegisters.Stream.Basic

/-!
# Scripted streams

A stream whose behaviour is laid down beforehand, call by call: what each read delivers, how much
each write takes, which calls fail. `Script.sent` collects the bytes that writes took, and
`Script.undelivered` is the data that no read has fetched yet.

A script that has run out behaves like a peer that has hung up its sending side: reads find the end
of the stream, writes take everything and flushes succeed.
-/

namespace RemoteRegisters

/-- What one read does. -/
inductive ReadStep where
  /-- Delivers from these bytes; what does not fit stays for the next read. -/
  | data (bytes : List UInt8)
  | error (e : IoError)
  | endOfStream
  deriving DecidableEq, Repr

/-- What one write does. -/
inductive WriteStep where
  | accept (limit : Nat)
  | error (e : IoError)
  deriving DecidableEq, Repr

/-- What one flush does. -/
inductive FlushStep where
  | succeed
  | error (e : IoError)
  deriving DecidableEq, Repr

def ReadStep.bytes : ReadStep → List UInt8
  | data bytes => bytes
  | error _ => []
  | endOfStream => []

/-- A stream that follows a script. -/
structure Script where
  reads : List ReadStep
  writes : List WriteStep
  flushes : List FlushStep
  sent : List UInt8 := []
  deriving DecidableEq, Repr

namespace Script

/-- A stream that delivers some bytes and then ends, and takes everything. -/
def ofBytes (bytes : List UInt8) : Script where
  reads := [.data bytes]
  writes := []
  flushes := []

def undelivered (s : Script) : List UInt8 :=
  s.reads.flatMap ReadStep.bytes

/-- One read. A step's data may take several reads, and no read spans two steps. -/
def read (s : Script) (n : Nat) : Except IoError (List UInt8) × Script :=
  match s.reads with
  | [] => (.ok [], s)
  | .data bytes :: later =>
      if bytes.length ≤ n then (.ok bytes, { s with reads := later })
      else (.ok (bytes.take n), { s with reads := .data (bytes.drop n) :: later })
  | .error e :: later => (.error e, { s with reads := later })
  | .endOfStream :: later => (.ok [], { s with reads := later })

def write (s : Script) (bytes : List UInt8) : Except IoError Nat × Script :=
  match s.writes with
  | [] => (.ok bytes.length, { s with sent := s.sent ++ bytes })
  | .accept limit :: later =>
      (.ok (min limit bytes.length),
        { s with writes := later, sent := s.sent ++ bytes.take limit })
  | .error e :: later => (.error e, { s with writes := later })

def flush (s : Script) : Except IoError Unit × Script :=
  match s.flushes with
  | [] => (.ok (), s)
  | .succeed :: later => (.ok (), { s with flushes := later })
  | .error e :: later => (.error e, { s with flushes := later })

/-- What a read delivers is the front of the undelivered data, and the rest stays. -/
theorem undelivered_of_read {s s' : Script} {n : Nat} {bytes : List UInt8}
    (h : s.read n = (.ok bytes, s')) : s.undelivered = bytes ++ s'.undelivered := by
  unfold read at h
  split at h
  · cases h
    rfl
  · split at h
    · cases h
      simp [undelivered, ReadStep.bytes, *]
    · cases h
      simp only [undelivered, ReadStep.bytes, List.flatMap_cons, *]
      rw [← List.append_assoc, List.take_append_drop]
  · cases h
  · cases h
    simp [undelivered, ReadStep.bytes, *]

theorem undelivered_of_read_error {s s' : Script} {n : Nat} {e : IoError}
    (h : s.read n = (.error e, s')) : s'.undelivered = s.undelivered := by
  unfold read at h
  split at h
  · cases h
  · split at h <;> cases h
  · cases h
    simp [undelivered, ReadStep.bytes, *]
  · cases h

@[simp]
theorem undelivered_write (s : Script) (bytes : List UInt8) :
    (s.write bytes).2.undelivered = s.undelivered := by
  unfold write undelivered
  split <;> rfl

@[simp]
theorem undelivered_flush (s : Script) : s.flush.2.undelivered = s.undelivered := by
  unfold flush undelivered
  split <;> rfl

theorem sent_of_write {s s' : Script} {bytes : List UInt8} {n : Nat}
    (h : s.write bytes = (.ok n, s')) : s'.sent = s.sent ++ bytes.take n := by
  unfold write at h
  split at h
  · cases h
    simp
  · cases h
    simp [List.take_eq_take_iff]
  · cases h

instance : FiniteStream Script where
  read := read
  write := write
  flush := flush
  patience s := s.reads.length + s.writes.length
  supply s := s.undelivered.length
  length_of_read {s s' n bytes} h := by
    unfold read at h
    split at h
    · cases h
      exact Nat.zero_le n
    · split at h
      · cases h
        assumption
      · cases h
        simp only [List.length_take]
        omega
    · cases h
    · cases h
      exact Nat.zero_le n
  le_of_write {s s' bytes n} h := by
    unfold write at h
    split at h
    · cases h
      exact Nat.le_refl _
    · cases h
      omega
    · cases h
  patience_of_read {s s' n e} h _ := by
    unfold read at h
    split at h
    · cases h
    · split at h <;> cases h
    · cases h
      simp only [*, List.length_cons]
      omega
    · cases h
  patience_of_write {s s' bytes e} h _ := by
    unfold write at h
    split at h
    · cases h
    · cases h
    · cases h
      simp only [*, List.length_cons]
      omega
  supply_of_read {s s' n r} h := by
    cases r with
    | ok bytes =>
      rw [undelivered_of_read h, List.length_append, deliveredBytes]
      omega
    | error e =>
      rw [undelivered_of_read_error h, deliveredBytes]
      omega
  supply_of_write {s s' bytes r} h := by
    have same := undelivered_write s bytes
    rw [h] at same
    exact Nat.le_of_eq (congrArg List.length same)
  supply_of_flush {s s' r} h := by
    have same := undelivered_flush s
    rw [h] at same
    exact Nat.le_of_eq (congrArg List.length same)

end Script

end RemoteRegisters
