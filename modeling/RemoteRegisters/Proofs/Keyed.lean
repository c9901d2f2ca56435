import RemoteRegisters.Keyed

/-!
# Looking up in ascending lists

In a list whose keys ascend, the first element that is asked for has the least key
and the last one the greatest. Inserting an element puts it between those below
and those above it, and takes out the one with its own key.
-/

namespace RemoteRegisters.Keyed

variable {α : Type} {key : α → Nat} {xs : List α}

theorem Ascending.eq_of_key_eq (h : Ascending key xs) {x y : α} (hx : x ∈ xs) (hy : y ∈ xs)
    (hkey : key x = key y) : x = y := by
  induction xs with
  | nil => cases hx
  | cons z zs ih =>
    obtain ⟨habove, hrest⟩ := List.pairwise_cons.mp h
    obtain rfl | hx' := List.mem_cons.mp hx
    · obtain rfl | hy' := List.mem_cons.mp hy
      · rfl
      · exact absurd hkey (Nat.ne_of_lt (habove y hy'))
    · obtain rfl | hy' := List.mem_cons.mp hy
      · exact absurd hkey.symm (Nat.ne_of_lt (habove x hx'))
      · exact ih hrest hx' hy'

/-- The first element of a kind is the one with the least key. -/
theorem Ascending.find?_eq_some_iff (h : Ascending key xs) {p : α → Bool} {x : α} :
    xs.find? p = some x ↔ x ∈ xs ∧ p x = true ∧ ∀ y ∈ xs, p y = true → key x ≤ key y := by
  induction xs with
  | nil => simp
  | cons z zs ih =>
    obtain ⟨habove, hrest⟩ := List.pairwise_cons.mp h
    by_cases hz : p z = true
    · rw [List.find?_cons_of_pos hz, Option.some.injEq]
      constructor
      · rintro rfl
        refine ⟨List.mem_cons_self, hz, fun y hy _ => ?_⟩
        obtain rfl | hy := List.mem_cons.mp hy
        · exact Nat.le_refl _
        · exact Nat.le_of_lt (habove y hy)
      · rintro ⟨hx, -, hleast⟩
        obtain rfl | hx := List.mem_cons.mp hx
        · rfl
        · exact absurd (hleast z List.mem_cons_self hz) (Nat.not_le.mpr (habove x hx))
    · rw [List.find?_cons_of_neg hz, ih hrest]
      constructor
      · rintro ⟨hx, hpx, hleast⟩
        refine ⟨List.mem_cons_of_mem z hx, hpx, fun y hy hpy => ?_⟩
        obtain rfl | hy := List.mem_cons.mp hy
        · exact absurd hpy hz
        · exact hleast y hy hpy
      · rintro ⟨hx, hpx, hleast⟩
        obtain rfl | hx := List.mem_cons.mp hx
        · exact absurd hpx hz
        · exact ⟨hx, hpx, fun y hy => hleast y (List.mem_cons_of_mem z hy)⟩

/-- The last element of a kind is the one with the greatest key. -/
theorem Ascending.getLast?_filter_eq_some_iff (h : Ascending key xs) {p : α → Bool} {x : α} :
    (xs.filter p).getLast? = some x ↔
      x ∈ xs ∧ p x = true ∧ ∀ y ∈ xs, p y = true → key y ≤ key x := by
  have hlast {z : α} (hz : (xs.filter p).getLast? = some z) :
      z ∈ xs ∧ p z = true ∧ ∀ y ∈ xs, p y = true → key y ≤ key z := by
    obtain ⟨front, hfront⟩ := List.getLast?_eq_some_iff.mp hz
    have hmem : z ∈ xs.filter p := by
      rw [hfront]
      exact List.mem_append_right _ List.mem_cons_self
    have hbelow : Ascending key (front ++ [z]) := hfront ▸ h.filter p
    refine ⟨(List.mem_filter.mp hmem).1, (List.mem_filter.mp hmem).2, fun y hy hpy => ?_⟩
    have hy' : y ∈ front ++ [z] := hfront ▸ List.mem_filter.mpr ⟨hy, hpy⟩
    obtain hy' | hy' := List.mem_append.mp hy'
    · exact Nat.le_of_lt ((List.pairwise_append.mp hbelow).2.2 y hy' z List.mem_cons_self)
    · exact Nat.le_of_eq (congrArg key (List.mem_singleton.mp hy'))
  refine ⟨hlast, fun ⟨hx, hpx, hgreatest⟩ => ?_⟩
  have hne : xs.filter p ≠ [] := List.ne_nil_of_mem (List.mem_filter.mpr ⟨hx, hpx⟩)
  have hz := List.getLast?_eq_some_getLast hne
  obtain ⟨hmem, hpz, hle⟩ := hlast hz
  rw [hz, h.eq_of_key_eq hmem hx (Nat.le_antisymm (hgreatest _ hmem hpz) (hle x hx hpx))]

section Cons

variable {z : α} {zs : List α} {n : Nat}

theorem Ascending.filter_below_tail (h : Ascending key (z :: zs)) (hn : n ≤ key z) :
    zs.filter (fun y => decide (key y < n)) = [] := by
  rw [List.filter_eq_nil_iff]
  intro y hy
  have habove := (List.pairwise_cons.mp h).1 y hy
  simp only [decide_eq_true_eq]
  omega

theorem Ascending.filter_above_tail (h : Ascending key (z :: zs)) (hn : n ≤ key z) :
    zs.filter (fun y => decide (n < key y)) = zs := by
  rw [List.filter_eq_self]
  intro y hy
  have habove := (List.pairwise_cons.mp h).1 y hy
  simp only [decide_eq_true_eq]
  omega

end Cons

/-- Around a key that no element has, a list falls apart into what is below and what is above. -/
theorem Ascending.eq_filter_append (h : Ascending key xs) {n : Nat}
    (hfree : ∀ y ∈ xs, key y ≠ n) :
    xs = xs.filter (fun y => decide (key y < n)) ++ xs.filter (fun y => decide (n < key y)) := by
  induction xs with
  | nil => rfl
  | cons z zs ih =>
    have hrest := (List.pairwise_cons.mp h).2
    have hz := hfree z List.mem_cons_self
    by_cases hlt : key z < n
    · rw [List.filter_cons_of_pos (by simpa using hlt),
        List.filter_cons_of_neg (by simpa using Nat.le_of_lt hlt), List.cons_append]
      exact congrArg _ (ih hrest fun y hy => hfree y (List.mem_cons_of_mem z hy))
    · have hgt : n < key z := by omega
      rw [List.filter_cons_of_neg (by simpa using hlt),
        List.filter_cons_of_pos (by simpa using hgt),
        h.filter_below_tail (Nat.le_of_lt hgt), h.filter_above_tail (Nat.le_of_lt hgt)]
      rfl

/-- An element is inserted behind those below it and before those above it. -/
theorem Ascending.insert_eq (h : Ascending key xs) (x : α) :
    insert key x xs =
      xs.filter (fun y => decide (key y < key x)) ++
        x :: xs.filter (fun y => decide (key x < key y)) := by
  induction xs with
  | nil => rfl
  | cons z zs ih =>
    have hrest := (List.pairwise_cons.mp h).2
    unfold insert
    split
    · rename_i hlt
      rw [List.filter_cons_of_neg (by simpa using Nat.le_of_lt hlt),
        List.filter_cons_of_pos (by simpa using hlt),
        h.filter_below_tail (Nat.le_of_lt hlt), h.filter_above_tail (Nat.le_of_lt hlt)]
      rfl
    · split
      · rename_i hlt heq
        rw [List.filter_cons_of_neg (by simp [heq]), List.filter_cons_of_neg (by simp [heq]),
          h.filter_below_tail (Nat.le_of_eq heq), h.filter_above_tail (Nat.le_of_eq heq)]
        rfl
      · rename_i hlt hne
        have hz : key z < key x := by omega
        rw [List.filter_cons_of_pos (by simpa using hz),
          List.filter_cons_of_neg (by simpa using Nat.le_of_lt hz), List.cons_append]
        exact congrArg _ (ih hrest)

/-- An element with a key that is taken replaces the one that has it. -/
theorem Ascending.insert_of_key_eq {before after : List α} {x y : α}
    (h : Ascending key (before ++ y :: after)) (hkey : key x = key y) :
    insert key x (before ++ y :: after) = before ++ x :: after := by
  induction before with
  | nil => simp [insert, hkey]
  | cons z zs ih =>
    obtain ⟨habove, hrest⟩ := List.pairwise_cons.mp h
    have hz := habove y (List.mem_append_right zs List.mem_cons_self)
    rw [List.cons_append, insert, if_neg (by omega), if_neg (by omega), ih hrest]
    rfl

/-- An element with a key of its own is added, and none is lost. -/
theorem Ascending.insert_perm (h : Ascending key xs) {x : α} (hfree : ∀ y ∈ xs, key y ≠ key x) :
    (insert key x xs).Perm (x :: xs) := by
  rw [h.insert_eq]
  refine List.perm_middle.trans (List.Perm.cons x ?_)
  rw [← h.eq_filter_append hfree]

/-- What a list holds determines it, for its order is that of the keys. -/
theorem Ascending.eq_of_perm (h : Ascending key xs) {ys : List α} (h' : Ascending key ys)
    (hperm : xs.Perm ys) : xs = ys :=
  hperm.eq_of_pairwise (fun _ _ _ _ hlt hgt => absurd hlt (Nat.lt_asymm hgt)) h h'

theorem Ascending.mem_insert_iff (h : Ascending key xs) {x z : α} :
    z ∈ insert key x xs ↔ z = x ∨ z ∈ xs ∧ key z ≠ key x := by
  rw [h.insert_eq]
  simp only [List.mem_append, List.mem_cons, List.mem_filter, decide_eq_true_eq]
  constructor
  · rintro (⟨hz, hlt⟩ | rfl | ⟨hz, hlt⟩)
    · exact .inr ⟨hz, Nat.ne_of_lt hlt⟩
    · exact .inl rfl
    · exact .inr ⟨hz, Nat.ne_of_gt hlt⟩
  · rintro (rfl | ⟨hz, hne⟩)
    · exact .inr (.inl rfl)
    · obtain hlt | hgt := Nat.lt_or_gt_of_ne hne
      · exact .inl ⟨hz, hlt⟩
      · exact .inr (.inr ⟨hz, hgt⟩)

end RemoteRegisters.Keyed
