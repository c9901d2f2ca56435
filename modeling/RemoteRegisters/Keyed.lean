/-!
# Lists in ascending order of a key

Tables that are looked up by offset or address are kept as lists in which the keys strictly ascend.
`Keyed.insert` puts an element at its place; an element with the same key is replaced, so there is
never more than one element to a key.
-/

namespace RemoteRegisters.Keyed

variable {α : Type}

/-- Puts an element at its place, instead of the element with the same key if there is one. -/
def insert (key : α → Nat) (x : α) : List α → List α
  | [] => [x]
  | y :: ys =>
      if key x < key y then x :: y :: ys
      else if key x = key y then x :: ys
      else y :: insert key x ys

def Ascending (key : α → Nat) (xs : List α) : Prop :=
  xs.Pairwise fun x y => key x < key y

/-- Every element after an insertion is the inserted one or was there before. -/
theorem eq_or_mem_of_mem_insert {key : α → Nat} {x z : α} {xs : List α}
    (h : z ∈ insert key x xs) : z = x ∨ z ∈ xs := by
  induction xs with
  | nil => simpa [insert] using h
  | cons y ys ih =>
    unfold insert at h
    split at h
    · simpa using h
    · split at h
      · rcases List.mem_cons.mp h with rfl | later
        · exact .inl rfl
        · exact .inr (List.mem_cons_of_mem _ later)
      · rcases List.mem_cons.mp h with rfl | later
        · exact .inr List.mem_cons_self
        · exact (ih later).imp_right (List.mem_cons_of_mem _)

theorem ascending_insert {key : α → Nat} {xs : List α} (h : Ascending key xs) (x : α) :
    Ascending key (insert key x xs) := by
  induction xs with
  | nil => simp [insert, Ascending]
  | cons y ys ih =>
    obtain ⟨above, rest⟩ := List.pairwise_cons.mp h
    unfold insert
    split
    · rename_i before
      refine List.pairwise_cons.mpr ⟨fun z hz => ?_, h⟩
      rcases List.mem_cons.mp hz with rfl | later
      · exact before
      · exact Nat.lt_trans before (above z later)
    · split
      · rename_i same
        exact List.pairwise_cons.mpr ⟨fun z hz => same ▸ above z hz, rest⟩
      · rename_i notBefore notSame
        refine List.pairwise_cons.mpr ⟨fun z hz => ?_, ih rest⟩
        rcases eq_or_mem_of_mem_insert hz with rfl | later
        · omega
        · exact above z later

end RemoteRegisters.Keyed
