import RemoteRegisters.Log

/-!
# Devices

A device answers accesses to a window of its own, by offset and width. Anything that does can be
mapped into an address space.

An operation of this library has three results at once: an answer, a new state and what it reports.
`Outcome` holds them together.
-/

namespace RemoteRegisters

/-- What comes of one operation on a state. -/
structure Outcome (σ α : Type) where
  answer : α
  state : σ
  log : List Event

/-- The states that answer accesses to a window. -/
class Device (δ : Type) where
  size : δ → UInt64
  access : δ → UInt64 → Width → Operation → Outcome δ Answer

/-- Either of two kinds of devices is a device. -/
instance {δ₁ δ₂ : Type} [Device δ₁] [Device δ₂] : Device (δ₁ ⊕ δ₂) where
  size
    | .inl d => Device.size d
    | .inr d => Device.size d
  access
    | .inl d, offset, width, operation =>
        let o := Device.access d offset width operation
        ⟨o.answer, .inl o.state, o.log⟩
    | .inr d, offset, width, operation =>
        let o := Device.access d offset width operation
        ⟨o.answer, .inr o.state, o.log⟩

end RemoteRegisters
