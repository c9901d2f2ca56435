import RemoteRegisters.Proofs.Access.Truncation
import RemoteRegisters.Proofs.Bridge.Exchange
import RemoteRegisters.Proofs.Session.Service

/-!
# Accesses made on the registers directly

What accesses come to when they are made on a register file, with no stream in
between: checked as every access is, and with all 64 bits of a written value. The
request of an access carries less of the value, but has the same effect.

## Main definitions

- `RegisterFile.answer`, `RegisterFile.accessed`, `RegisterFile.emittedBy` — one access
- `RegisterFile.answers`, `RegisterFile.emissions` — accesses one after the other
-/

namespace RemoteRegisters

namespace RegisterFile

/-- What a direct access returns. -/
def answer (f : RegisterFile) (c : Call) : Answer :=
  match Window.place c.address c.size with
  | .error e => .error e
  | .ok a =>
      match c.operation with
      | .read => .ok (some (f.read a.offset a.width))
      | .write _ => .ok none

def accessed (f : RegisterFile) (c : Call) : RegisterFile :=
  match Window.place c.address c.size with
  | .error _ => f
  | .ok a =>
      match c.operation with
      | .read => f
      | .write value => f.write a.offset a.width value

def emittedBy (f : RegisterFile) (c : Call) : List UInt8 :=
  match Window.place c.address c.size with
  | .error _ => []
  | .ok a =>
      match c.operation with
      | .read => []
      | .write value => f.emitted a.offset a.width value

/-- What direct accesses return, one after the other. -/
def answers (f : RegisterFile) : List Call → List Answer
  | [] => []
  | c :: cs => f.answer c :: (f.accessed c).answers cs

def emissions (f : RegisterFile) : List Call → List UInt8
  | [] => []
  | c :: cs => f.emittedBy c ++ (f.accessed c).emissions cs

/-- What a read finds in the registers, as it travels. -/
def found (f : RegisterFile) (c : Call) (a : Placement) : Option UInt32 :=
  match c.operation with
  | .read => some (a.width.truncate (f.read a.offset a.width))
  | .write _ => none

variable (f : RegisterFile) {c : Call} {a : Placement}

theorem answer_of_place (h : Window.place c.address c.size = .ok a) :
    f.answer c = .ok ((f.found c a).map UInt32.toUInt64) := by
  simp only [answer, h, found]
  cases c.operation with
  | read => exact congrArg (fun v => Except.ok (some v)) (f.toUInt64_truncate_read _ _).symm
  | write value => rfl

/-- A request has the effect of its access, though it carries less of the value. -/
theorem apply_request (h : Window.place c.address c.size = .ok a) :
    f.apply (c.request a) = f.accessed c := by
  simp only [accessed, h, Call.request]
  cases c.operation with
  | read => rfl
  | write value => exact f.write_toUInt64_truncate a.offset a.width value

theorem transmittedBy_request (h : Window.place c.address c.size = .ok a) :
    f.transmittedBy (c.request a) = f.emittedBy c := by
  simp only [emittedBy, h, Call.request]
  cases c.operation with
  | read => rfl
  | write value => exact f.emitted_toUInt64_truncate a.offset a.width value

theorem accessed_of_refused {e : AccessError} (h : Window.place c.address c.size = .error e) :
    f.accessed c = f := by
  simp only [accessed, h]

theorem emittedBy_of_refused {e : AccessError} (h : Window.place c.address c.size = .error e) :
    f.emittedBy c = [] := by
  simp only [emittedBy, h]

/-- An access has the effect of the request that it sends, if it sends one. -/
theorem applyAll_request? (c : Call) : f.applyAll c.request?.toList = f.accessed c := by
  cases hplace : Window.place c.address c.size with
  | error e =>
    rw [Call.request?_of_refused hplace, f.accessed_of_refused hplace]
    rfl
  | ok a =>
    rw [Call.request?_of_place hplace, ← f.apply_request hplace]
    rfl

/-- What later accesses return depends on the earlier ones only through their requests. -/
theorem answers_append (cs ds : List Call) :
    f.answers (cs ++ ds) = f.answers cs ++ (f.applyAll (Call.requests cs)).answers ds := by
  induction cs generalizing f with
  | nil => rfl
  | cons c cs ih =>
    rw [List.cons_append, answers, answers, ih, Call.requests_cons, applyAll_append,
      applyAll_request?]
    rfl

theorem transmitted_requests (cs : List Call) :
    f.transmitted (Call.requests cs) = f.emissions cs := by
  induction cs generalizing f with
  | nil => rfl
  | cons c cs ih =>
    rw [Call.requests, List.filterMap_cons]
    cases hplace : Window.place c.address c.size with
    | error e =>
      rw [Call.request?_of_refused hplace, emissions, f.accessed_of_refused hplace,
        f.emittedBy_of_refused hplace]
      exact ih f
    | ok a =>
      rw [Call.request?_of_place hplace, emissions, ← f.apply_request hplace,
        ← f.transmittedBy_request hplace]
      exact congrArg _ (ih _)

end RegisterFile

end RemoteRegisters
