import RemoteRegisters.Proofs.Frame.RoundTrip
import RemoteRegisters.Session.Run

/-!
# Requests carried out one after the other

What a list of requests does to a register file, which bytes answer it and
which are transmitted, said of the registers alone. A session that carries the
requests out keeps exactly these accounts.

## Main definitions

- `RegisterFile.applyAll`, `RegisterFile.responses`, `RegisterFile.transmitted` — the registers,
  the answers and the output of a list of requests
- `Session.serve` — a request carried out, with its response on the way
- `Session.Books` — what a session holds, has counted and has emitted comes from the requests that it
  served
-/

namespace RemoteRegisters

namespace RegisterFile

def apply (f : RegisterFile) : Request → RegisterFile
  | .read .. => f
  | .write addr width value => f.write addr width value.toUInt64

/-- The bytes that answer a request: the value of a read as the registers hold it then. -/
def response (f : RegisterFile) : Request → List UInt8
  | .read addr width => encodeValue (width.truncate (f.read addr width)) width
  | .write .. => []

def transmittedBy (f : RegisterFile) : Request → List UInt8
  | .read .. => []
  | .write addr width value => f.emitted addr width value.toUInt64

def applyAll (f : RegisterFile) (rs : List Request) : RegisterFile :=
  rs.foldl apply f

def responses (f : RegisterFile) : List Request → List UInt8
  | [] => []
  | r :: rs => f.response r ++ (f.apply r).responses rs

def transmitted (f : RegisterFile) : List Request → List UInt8
  | [] => []
  | r :: rs => f.transmittedBy r ++ (f.apply r).transmitted rs

/-! A list of requests that is carried out part by part. -/

theorem applyAll_append (f : RegisterFile) (rs qs : List Request) :
    f.applyAll (rs ++ qs) = (f.applyAll rs).applyAll qs :=
  List.foldl_append

theorem responses_append (f : RegisterFile) (rs qs : List Request) :
    f.responses (rs ++ qs) = f.responses rs ++ (f.applyAll rs).responses qs := by
  induction rs generalizing f with
  | nil => rfl
  | cons r rs ih =>
    rw [List.cons_append, responses, responses, ih, List.append_assoc]
    rfl

theorem transmitted_append (f : RegisterFile) (rs qs : List Request) :
    f.transmitted (rs ++ qs) = f.transmitted rs ++ (f.applyAll rs).transmitted qs := by
  induction rs generalizing f with
  | nil => rfl
  | cons r rs ih =>
    rw [List.cons_append, transmitted, transmitted, ih, List.append_assoc]
    rfl

theorem responses_singleton (f : RegisterFile) (r : Request) : f.responses [r] = f.response r :=
  List.append_nil _

theorem transmitted_singleton (f : RegisterFile) (r : Request) :
    f.transmitted [r] = f.transmittedBy r :=
  List.append_nil _

end RegisterFile

namespace Session

/-- A request carried out, with its response sent. -/
def serve (s : Session) (r : Request) : Session :=
  (s.apply r).responded

def serveAll (s : Session) (rs : List Request) : Session :=
  rs.foldl serve s

theorem serveAll_cons (s : Session) (r : Request) (rs : List Request) :
    s.serveAll (r :: rs) = (s.serve r).serveAll rs :=
  rfl

@[simp]
theorem phase_serve (s : Session) (r : Request) : (s.serve r).phase = .idle :=
  rfl

@[simp]
theorem registers_apply (s : Session) (r : Request) :
    (s.apply r).registers = s.registers.apply r := by
  cases r <;> rfl

@[simp]
theorem served_apply (s : Session) (r : Request) : (s.apply r).served = s.served ++ [r] := by
  cases r <;> rfl

@[simp]
theorem frames_apply (s : Session) (r : Request) : (s.apply r).frames = s.frames + 1 := by
  cases r <;> rfl

@[simp]
theorem output_apply (s : Session) (r : Request) :
    (s.apply r).output = s.output ++ s.registers.transmittedBy r := by
  cases r with
  | read addr w => exact (List.append_nil _).symm
  | write addr w value => rfl

@[simp]
theorem registers_serve (s : Session) (r : Request) :
    (s.serve r).registers = s.registers.apply r :=
  s.registers_apply r

@[simp]
theorem served_serve (s : Session) (r : Request) : (s.serve r).served = s.served ++ [r] :=
  s.served_apply r

@[simp]
theorem frames_serve (s : Session) (r : Request) : (s.serve r).frames = s.frames + 1 :=
  s.frames_apply r

@[simp]
theorem output_serve (s : Session) (r : Request) :
    (s.serve r).output = s.output ++ s.registers.transmittedBy r :=
  s.output_apply r

theorem phase_serveAll {s : Session} (hidle : s.phase = .idle) (rs : List Request) :
    (s.serveAll rs).phase = .idle := by
  induction rs generalizing s with
  | nil => exact hidle
  | cons r rs ih => exact ih (phase_serve s r)

@[simp]
theorem registers_serveAll (s : Session) (rs : List Request) :
    (s.serveAll rs).registers = s.registers.applyAll rs := by
  induction rs generalizing s with
  | nil => rfl
  | cons r rs ih =>
    rw [serveAll_cons, ih, registers_serve]
    rfl

@[simp]
theorem served_serveAll (s : Session) (rs : List Request) :
    (s.serveAll rs).served = s.served ++ rs := by
  induction rs generalizing s with
  | nil => exact (List.append_nil _).symm
  | cons r rs ih =>
    rw [serveAll_cons, ih, served_serve, List.append_assoc]
    rfl

@[simp]
theorem frames_serveAll (s : Session) (rs : List Request) :
    (s.serveAll rs).frames = s.frames + rs.length := by
  induction rs generalizing s with
  | nil => rfl
  | cons r rs ih =>
    rw [serveAll_cons, ih, frames_serve, List.length_cons]
    omega

@[simp]
theorem output_serveAll (s : Session) (rs : List Request) :
    (s.serveAll rs).output = s.output ++ s.registers.transmitted rs := by
  induction rs generalizing s with
  | nil => exact (List.append_nil _).symm
  | cons r rs ih =>
    rw [serveAll_cons, ih, output_serve, registers_serve, List.append_assoc]
    rfl

/-- What a session holds, has counted and has emitted comes from the requests that it served, and each
of them is one that a frame can carry. -/
structure Books (m : RegisterMap) (s : Session) : Prop where
  registers_eq : s.registers = (RegisterFile.ofMap m).applyAll s.served
  frames_eq : s.frames = s.served.length
  output_eq : s.output = (RegisterFile.ofMap m).transmitted s.served
  fit_eq : ∀ q ∈ s.served, q.fit = q

section Books

variable {m : RegisterMap} {s : Session}

theorem books_ofMap (m : RegisterMap) : (ofMap m).Books m :=
  ⟨rfl, rfl, rfl, fun _ h => (List.not_mem_nil h).elim⟩

theorem Books.apply (h : s.Books m) {q : Request} (hfit : q.fit = q) : (s.apply q).Books m where
  registers_eq := by
    rw [served_apply, RegisterFile.applyAll_append, ← h.registers_eq]
    exact s.registers_apply q
  frames_eq := by rw [frames_apply, served_apply, List.length_append, h.frames_eq]; rfl
  output_eq := by
    rw [served_apply, RegisterFile.transmitted_append, RegisterFile.transmitted_singleton,
      ← h.output_eq, ← h.registers_eq]
    exact s.output_apply q
  fit_eq q' hq' := by
    rw [served_apply] at hq'
    obtain hq' | hq' := List.mem_append.mp hq'
    · exact h.fit_eq q' hq'
    · rw [List.mem_singleton.mp hq', hfit]

/-- The books are about what was served, whatever phase the session is in. -/
theorem Books.of_same {s' : Session} (h : s.Books m) (hregisters : s'.registers = s.registers)
    (hframes : s'.frames = s.frames) (houtput : s'.output = s.output)
    (hserved : s'.served = s.served) : s'.Books m where
  registers_eq := by rw [hregisters, hserved, h.registers_eq]
  frames_eq := by rw [hframes, hserved, h.frames_eq]
  output_eq := by rw [houtput, hserved, h.output_eq]
  fit_eq := by rw [hserved]; exact h.fit_eq

end Books

end Session

end RemoteRegisters
