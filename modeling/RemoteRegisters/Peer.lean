import RemoteRegisters.Bridge
import RemoteRegisters.Stream.System

/-!
# Scripted peers

A `Peer` stands for the far end of a connection that answers by a script instead of by registers:
the first read request that reaches it gets the first reply, the second the second, and so on.
When all replies are given it either closes its sending side or falls silent. It keeps taking
requests all the while.

A near end that waits for a silent peer gives up after its timeout, which is a fault of that read.
-/

namespace RemoteRegisters

/-- A far end that replies by a script. -/
structure Peer where
  replies : List (List UInt8)
  /-- Close the sending side after the last reply, instead of falling silent. -/
  closes : Bool
  inbox : List UInt8 := []
  /-- Bytes of replies that the near end has not read yet. -/
  outbox : List UInt8 := []
  got : List UInt8 := []
  deriving DecidableEq, Repr

namespace Peer

/-- Gives the replies that a number of read requests ask for. -/
def reply (p : Peer) (requests : Nat) : Peer :=
  { p with
    replies := p.replies.drop requests
    outbox := p.outbox ++ (p.replies.take requests).flatten }

def deliver (p : Peer) (bytes : List UInt8) : Peer :=
  let (requests, rest) := Request.decodeAll (p.inbox ++ bytes)
  let reads := requests.countP fun r => r.kind = .read
  { p with inbox := rest, got := p.got ++ bytes }.reply reads

def read (p : Peer) (n : Nat) : Except IoError (List UInt8) × Peer :=
  if p.outbox = [] then
    if p.closes && p.replies.isEmpty then (.ok [], p) else (.error .waitedInVain, p)
  else (.ok (p.outbox.take n), { p with outbox := p.outbox.drop n })

def supply (p : Peer) : Nat :=
  p.outbox.length + p.replies.flatten.length

theorem supply_reply (p : Peer) (requests : Nat) : (p.reply requests).supply = p.supply := by
  have parts := congrArg (fun rs : List (List UInt8) => rs.flatten.length)
    (List.take_append_drop requests p.replies)
  simp only [List.flatten_append, List.length_append] at parts
  simp only [supply, reply, List.length_append]
  omega

instance : FiniteStream Peer where
  read := read
  write p bytes := (.ok bytes.length, p.deliver bytes)
  flush p := (.ok (), p)
  patience _ := 0
  supply := supply
  length_of_read {s s' n bytes} h := by
    unfold read at h
    split at h
    · split at h
      · cases h
        exact Nat.zero_le n
      · cases h
    · cases h
      simp only [List.length_take]
      omega
  le_of_write {s s' bytes n} h := by
    cases h
    exact Nat.le_refl _
  patience_of_read {s s' n e} h he := by
    unfold read at h
    split at h
    · split at h
      · cases h
      · cases h
        cases he
    · cases h
  patience_of_write {s s' bytes e} h _ := by cases h
  supply_of_read {s s' n r} h := by
    unfold read at h
    split at h
    · split at h <;> cases h <;> exact Nat.le_refl _
    · cases h
      simp only [supply, deliveredBytes, List.length_take, List.length_drop]
      omega
  supply_of_write {s s' bytes r} h := by
    cases h
    simp only [deliver, supply_reply]
    exact Nat.le_refl _
  supply_of_flush {s s' r} h := by
    cases h
    exact Nat.le_refl _

/-- A bridge to a peer, on which a read gives up after a timeout. A timeout of zero is refused. -/
def connect (p : Peer) (timeout : Option Nat) : Except IoError (Bridge Peer) :=
  if timeout = some 0 then
    .error .zeroTimeout
  else .ok { stream := p, hooked := true }

end Peer

end RemoteRegisters
