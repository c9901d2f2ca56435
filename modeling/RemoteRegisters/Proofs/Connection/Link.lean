import RemoteRegisters.Proofs.Session.Reception
import RemoteRegisters.Proofs.Stream.Lossless

/-!
# Streams with a session at their far end

A link is a lossless stream that joins its near end to a session. It may move
bytes in pieces of any length, be interrupted, and hold bytes back as long as
nobody waits for them: what a session makes of bytes does not depend on when
they reach it (`Remote.deliver_deliver`).

## Main definitions

- `SessionLink` — the streams with a session at their far end
- `Paced` — a link that moves its bytes at a given pace, and late
-/

namespace RemoteRegisters

namespace Remote

/-- A session that has settled waits for more bytes than have come, or is over. -/
def Settled (r : Remote) : Prop :=
  r.session.isOver = true ∨
    r.session.phase.distance = 1 ∧ r.inbox.length < r.session.phase.demand

theorem settle_of_settled {r : Remote} (h : r.Settled) : r.settle = r := by
  obtain hover | ⟨hwait, hshort⟩ := h
  · exact settle_of_over hover
  · exact settle_of_short hwait hshort

theorem settled_settle (r : Remote) : r.settle.Settled := by
  fun_induction settle r with
  | case1 r hover => exact .inl hover
  | case2 r hover response hresponse ih => exact ih
  | case3 r hover hresponse demand =>
    rename_i ih
    exact ih
  | case4 r hover hresponse demand =>
    rename_i hshort
    exact .inr ⟨(Session.response?_eq_none_iff hover).mp hresponse, Nat.not_le.mp hshort⟩

/-- Bytes that come late are taken up as if they had been there from the start. -/
theorem settle_append (r : Remote) (bytes : List UInt8) :
    settle { r.settle with inbox := r.settle.inbox ++ bytes } =
      settle { r with inbox := r.inbox ++ bytes } := by
  fun_induction settle r with
  | case1 r hover => rfl
  | case2 r hover response hresponse ih =>
    rw [ih, settle_of_responding (r := { r with inbox := r.inbox ++ bytes })
      (Session.phase_of_response? hresponse)]
  | case3 r hover hresponse demand =>
    rename_i henough ih
    -- what the session takes up now is there already, so late bytes only lengthen the rest
    have hwait := (Session.response?_eq_none_iff hover).mp hresponse
    have hmore : demand ≤ (r.inbox ++ bytes).length := by
      rw [List.length_append]
      omega
    rw [ih, settle_of_enough (r := { r with inbox := r.inbox ++ bytes }) hwait hmore,
      List.take_append_of_le_length henough, List.drop_append_of_le_length henough]
  | case4 r hover hresponse demand => rfl

/-- Bytes that are delivered in two parts come to the same as bytes that are delivered at once. -/
theorem deliver_deliver (r : Remote) (a b : List UInt8) :
    (r.deliver a).deliver b = r.deliver (a ++ b) := by
  rw [deliver, deliver, settle_append, deliver, List.append_assoc]

/-- The near end of a remote reads what the session has answered, and the session takes up what is
written. -/
instance : Duplex Remote where
  incoming := Remote.outbox
  taken r n := { r with outbox := r.outbox.drop n }
  given := deliver
  incoming_taken r n := rfl
  taken_zero r := rfl
  taken_taken r m n := by rw [List.drop_drop]
  given_given := deliver_deliver

theorem taken_length_take (r : Remote) (n : Nat) :
    Duplex.taken r (r.outbox.take n).length = { r with outbox := r.outbox.drop n } := by
  have hdrop : r.outbox.drop (r.outbox.take n).length = r.outbox.drop n := by
    by_cases hle : n ≤ r.outbox.length
    · rw [List.length_take, Nat.min_eq_left hle]
    · rw [List.take_of_length_le (by omega), List.drop_length, List.drop_of_length_le (by omega)]
  change { r with outbox := r.outbox.drop (r.outbox.take n).length } = _
  rw [hdrop]

end Remote

/-- A lossless stream with a session at its far end. -/
class SessionLink (σ : Type) extends ByteStream σ where
  /-- The session when all bytes that were written have reached it. -/
  far : σ → Remote
  lossless : Lossless fun s r => far s = r

/-- Bytes that pass at once. -/
instance : SessionLink Remote where
  far := id
  lossless :=
    { read_ok := by
        rintro s s' r n got rfl hn h
        cases h
        refine ⟨List.take_prefix n s.outbox, fun hnil => ?_, fun _ => ?_⟩
        · exact (List.take_eq_nil_iff.mp hnil).resolve_left (Nat.ne_of_gt hn)
        · exact (s.taken_length_take n).symm
      read_error := by
        rintro s s' r n e rfl - h
        cases h
      write_ok := by
        rintro s s' r bytes n rfl hne h
        cases h
        exact ⟨List.length_pos_iff.mpr hne, by rw [List.take_length]; rfl⟩
      write_error := by
        rintro s s' r bytes e rfl - h
        cases h
      flush_ok := by
        rintro s s' r outcome rfl h
        cases h
        exact ⟨rfl, rfl⟩ }

/-! ### A link with a pace -/

/-- A link whose calls move at most as many bytes as the pace says, one number for each call. Zero is
an interruption. What is written stays under way until the near end reads. -/
structure Paced where
  remote : Remote
  underway : List UInt8 := []
  pace : List Nat
  deriving DecidableEq, Repr

namespace Paced

def arrived (s : Paced) : Remote :=
  s.remote.deliver s.underway

/-- How many of `n` bytes the next call moves, unless it is interrupted. -/
def allowed (s : Paced) (n : Nat) : Option Nat :=
  match s.pace with
  | [] => some n
  | 0 :: _ => none
  | limit :: _ => some (min limit n)

theorem allowed_of_some {s : Paced} {n k : Nat} (h : s.allowed n = some k) :
    k ≤ n ∧ (0 < n → 0 < k) := by
  unfold allowed at h
  split at h
  · cases h
    exact ⟨Nat.le_refl _, id⟩
  · cases h
  · rename_i hlimit _
    cases h
    have hpos := Nat.pos_of_ne_zero hlimit
    omega

theorem length_tail_of_interrupted {s : Paced} {n : Nat} (h : s.allowed n = none) :
    s.pace.tail.length < s.pace.length := by
  unfold allowed at h
  split at h
  · cases h
  · rename_i hpace
    rw [hpace]
    exact Nat.lt_succ_self _
  · cases h

def interrupted : IoError :=
  ⟨.interrupted, none⟩

/-- One read. Whoever waits for bytes gets those that the session answers to what was under way. -/
def read (s : Paced) (n : Nat) : Except IoError (List UInt8) × Paced :=
  match s.allowed n with
  | none => (.error interrupted, { s with pace := s.pace.tail })
  | some k =>
      (.ok (s.arrived.outbox.take k),
        { remote := { s.arrived with outbox := s.arrived.outbox.drop k }
          pace := s.pace.tail })

def write (s : Paced) (bytes : List UInt8) : Except IoError Nat × Paced :=
  match s.allowed bytes.length with
  | none => (.error interrupted, { s with pace := s.pace.tail })
  | some k => (.ok k, { s with underway := s.underway ++ bytes.take k, pace := s.pace.tail })

instance : ByteStream Paced where
  read := read
  write := write
  flush s := (.ok (), s)
  patience s := s.pace.length
  length_of_read {s s' n bytes} h := by
    unfold read at h
    split at h
    · cases h
    · rename_i hallowed
      cases h
      exact Nat.le_trans (List.length_take_le _ _) (allowed_of_some hallowed).1
  le_of_write {s s' bytes n} h := by
    unfold write at h
    split at h
    · cases h
    · rename_i hallowed
      cases h
      exact (allowed_of_some hallowed).1
  patience_of_read {s s' n e} h _ := by
    unfold read at h
    split at h
    · rename_i hallowed
      cases h
      exact length_tail_of_interrupted hallowed
    · cases h
  patience_of_write {s s' bytes e} h _ := by
    unfold write at h
    split at h
    · rename_i hallowed
      cases h
      exact length_tail_of_interrupted hallowed
    · cases h

theorem deliver_nil {r : Remote} (h : r.Settled) (outbox : List UInt8) :
    { r with outbox := outbox }.deliver [] = { r with outbox := outbox } := by
  rw [Remote.deliver, List.append_nil]
  exact Remote.settle_of_settled h

instance : SessionLink Paced where
  far := arrived
  lossless :=
    { read_ok := by
        rintro s s' r n got rfl hn h
        change s.read n = _ at h
        unfold read at h
        split at h
        · cases h
        · rename_i k hallowed
          have hpos := (allowed_of_some hallowed).2 hn
          cases h
          refine ⟨List.take_prefix k _, fun hnil => ?_, fun _ => ?_⟩
          · exact (List.take_eq_nil_iff.mp hnil).resolve_left (Nat.ne_of_gt hpos)
          · rw [Remote.taken_length_take]
            exact deliver_nil (Remote.settled_settle _) _
      read_error := by
        rintro s s' r n e rfl - h
        change s.read n = _ at h
        unfold read at h
        split at h
        · cases h
          exact ⟨rfl, rfl⟩
        · cases h
      write_ok := by
        rintro s s' r bytes n rfl hne h
        change s.write bytes = _ at h
        unfold write at h
        split at h
        · cases h
        · rename_i hallowed
          have hpos := (allowed_of_some hallowed).2 (List.length_pos_iff.mpr hne)
          cases h
          exact ⟨hpos, (s.remote.deliver_deliver s.underway _).symm⟩
      write_error := by
        rintro s s' r bytes e rfl - h
        change s.write bytes = _ at h
        unfold write at h
        split at h
        · cases h
          exact ⟨rfl, rfl⟩
        · cases h
      flush_ok := by
        rintro s s' r outcome rfl h
        cases h
        exact ⟨rfl, rfl⟩ }

end Paced

end RemoteRegisters
