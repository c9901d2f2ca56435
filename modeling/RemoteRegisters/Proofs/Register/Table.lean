import RemoteRegisters.Proofs.Keyed
import RemoteRegisters.Register.Map

/-!
# Which tables are register maps

A list of descriptors makes up a register map exactly if every descriptor lies in
the window, has the mode that its semantics imply, and no two share an offset. The
map holds the descriptors of the list in the order of their offsets, so the order
in which they were listed makes no difference. Of a list that is no map the first
descriptor is reported that does not fit with those before it
(`RegisterMap.ofList?_answer`).

## Main definitions

- `RegisterMap.WellFormed` — the tables that make up a register map
- `RegisterMap.Tabulates` — a map holds the descriptors of a table
- `RegisterMap.Refused` — why a descriptor does not fit with those before it
-/

namespace RemoteRegisters

namespace RegisterMap

variable {m m' : RegisterMap} {d : RegisterDescriptor} {ds before : List RegisterDescriptor}

/-- All descriptors lie in the window and have the mode that their semantics imply, and no two share
an offset. -/
structure WellFormed (ds : List RegisterDescriptor) : Prop where
  inside : ∀ d ∈ ds, d.offset.toNat < 0x1000
  mode_eq : ∀ d ∈ ds, d.mode = d.semantics.mode
  distinct : (ds.map RegisterDescriptor.offset).Nodup

instance : DecidablePred WellFormed := fun ds =>
  decidable_of_iff
    ((∀ d ∈ ds, d.offset.toNat < 0x1000) ∧ (∀ d ∈ ds, d.mode = d.semantics.mode) ∧
      (ds.map RegisterDescriptor.offset).Nodup)
    ⟨fun ⟨hinside, hmode, hdistinct⟩ => ⟨hinside, hmode, hdistinct⟩,
      fun h => ⟨h.inside, h.mode_eq, h.distinct⟩⟩

theorem wellFormed_nil : WellFormed [] where
  inside _ hd := (List.not_mem_nil hd).elim
  mode_eq _ hd := (List.not_mem_nil hd).elim
  distinct := List.nodup_nil

theorem WellFormed.of_perm (h : WellFormed ds) {ds' : List RegisterDescriptor}
    (hperm : ds'.Perm ds) : WellFormed ds' where
  inside d hd := h.inside d (hperm.mem_iff.mp hd)
  mode_eq d hd := h.mode_eq d (hperm.mem_iff.mp hd)
  distinct := (hperm.map _).nodup_iff.mpr h.distinct

theorem WellFormed.sublist (h : WellFormed ds) {ds' : List RegisterDescriptor}
    (hsub : ds'.Sublist ds) : WellFormed ds' where
  inside d hd := h.inside d (hsub.subset hd)
  mode_eq d hd := h.mode_eq d (hsub.subset hd)
  distinct := h.distinct.sublist (hsub.map _)

/-- One more descriptor fits if it is in order by itself and its offset is not taken. -/
theorem wellFormed_append_singleton_iff :
    WellFormed (ds ++ [d]) ↔
      WellFormed ds ∧ d.offset.toNat < 0x1000 ∧ d.mode = d.semantics.mode ∧
        ∀ x ∈ ds, x.offset ≠ d.offset := by
  have hlast : d ∈ ds ++ [d] := List.mem_append_right _ List.mem_cons_self
  constructor
  · rintro ⟨hinside, hmode, hdistinct⟩
    rw [List.map_append, List.nodup_append] at hdistinct
    obtain ⟨hds, -, hapart⟩ := hdistinct
    refine ⟨⟨fun x hx => hinside x (List.mem_append_left _ hx),
      fun x hx => hmode x (List.mem_append_left _ hx), hds⟩, hinside d hlast, hmode d hlast, ?_⟩
    exact fun x hx => hapart _ (List.mem_map_of_mem hx) _ List.mem_cons_self
  · rintro ⟨hds, hinside, hmode, hfree⟩
    refine ⟨fun x hx => ?_, fun x hx => ?_, ?_⟩
    · obtain hx | hx := List.mem_append.mp hx
      · exact hds.inside x hx
      · rwa [List.mem_singleton.mp hx]
    · obtain hx | hx := List.mem_append.mp hx
      · exact hds.mode_eq x hx
      · rwa [List.mem_singleton.mp hx]
    · rw [List.map_append, List.nodup_append]
      refine ⟨hds.distinct, List.pairwise_singleton _ _, fun o ho o' ho' => ?_⟩
      obtain ⟨x, hx, rfl⟩ := List.mem_map.mp ho
      rw [List.map_singleton, List.mem_singleton] at ho'
      rw [ho']
      exact hfree x hx

/-- In a table whose offsets are distinct, an offset picks out one descriptor. -/
theorem WellFormed.filter_offset_eq (h : WellFormed ds) (hd : d ∈ ds) :
    ds.filter (fun x => x.offset = d.offset) = [d] := by
  obtain ⟨front, back, rfl⟩ := List.append_of_mem hd
  have hdistinct := h.distinct
  rw [List.map_append, List.map_cons, List.nodup_append, List.nodup_cons] at hdistinct
  obtain ⟨-, ⟨hback, -⟩, hfront⟩ := hdistinct
  have hnone (rs : List RegisterDescriptor) (hrs : ∀ x ∈ rs, x.offset ≠ d.offset) :
      rs.filter (fun x => x.offset = d.offset) = [] := by
    rw [List.filter_eq_nil_iff]
    intro x hx
    simpa using hrs x hx
  rw [List.filter_append, List.filter_cons_of_pos (by simp), hnone front, hnone back, List.nil_append]
  · intro x hx hoffset
    exact hback (hoffset ▸ List.mem_map_of_mem hx)
  · intro x hx
    exact hfront _ (List.mem_map_of_mem hx) _ List.mem_cons_self

/-! ### What a map holds -/

/-- A map holds the descriptors of a table, in ascending order of their offsets. -/
structure Tabulates (m : RegisterMap) (ds : List RegisterDescriptor) : Prop where
  perm : m.registers.Perm ds
  ascending : Keyed.Ascending RegisterDescriptor.key m.registers

theorem tabulates_empty : empty.Tabulates [] :=
  ⟨List.Perm.nil, List.Pairwise.nil⟩

namespace Tabulates

theorem lookup?_eq_some_iff (h : m.Tabulates ds) {offset : UInt32} :
    m.lookup? offset = some d ↔ d ∈ ds ∧ d.offset = offset := by
  rw [lookup?, h.ascending.find?_eq_some_iff, h.perm.mem_iff]
  simp only [beq_iff_eq]
  refine and_congr_right fun _ => ⟨And.left, fun hoffset => ⟨hoffset, fun x _ hx => ?_⟩⟩
  exact Nat.le_of_eq (congrArg UInt32.toNat (hoffset.trans hx.symm))

theorem lookup?_eq_none_iff (h : m.Tabulates ds) {offset : UInt32} :
    m.lookup? offset = none ↔ ∀ x ∈ ds, x.offset ≠ offset := by
  rw [Option.eq_none_iff_forall_ne_some]
  constructor
  · exact fun hnone x hx hoffset => hnone x (h.lookup?_eq_some_iff.mpr ⟨hx, hoffset⟩)
  · intro hfree x hx
    obtain ⟨hmem, hoffset⟩ := h.lookup?_eq_some_iff.mp hx
    exact hfree x hmem hoffset

/-- The descriptors that a map holds determine it. -/
theorem unique (h : m.Tabulates ds) (h' : m'.Tabulates ds) : m = m' := by
  have hregisters : m.registers = m'.registers :=
    h.ascending.eq_of_perm h'.ascending (h.perm.trans h'.perm.symm)
  cases m
  cases m'
  exact congrArg _ hregisters

theorem insert (h : m.Tabulates before) (hfree : ∀ x ∈ before, x.offset ≠ d.offset) :
    Tabulates ⟨Keyed.insert RegisterDescriptor.key d m.registers⟩ (before ++ [d]) where
  perm := by
    have hkey : ∀ x ∈ m.registers, x.key ≠ d.key := fun x hx heq =>
      hfree x (h.perm.mem_iff.mp hx) (UInt32.toNat_inj.mp heq)
    refine (h.ascending.insert_perm hkey).trans ?_
    exact (h.perm.cons d).trans (List.perm_append_singleton d before).symm
  ascending := Keyed.ascending_insert h.ascending d

end Tabulates

/-! ### One descriptor after the other -/

/-- Why a descriptor is refused behind others: for its offset, else for its mode, else for the one
descriptor before it that has its offset. -/
inductive Refused (before : List RegisterDescriptor) (d : RegisterDescriptor) : MapError → Prop where
  | outside : 0x1000 ≤ d.offset.toNat → Refused before d (.outsideWindow d)
  | mode : d.offset.toNat < 0x1000 → d.mode ≠ d.semantics.mode → Refused before d (.modeMismatch d)
  | shared {first : RegisterDescriptor} : d.offset.toNat < 0x1000 → d.mode = d.semantics.mode →
      before.filter (fun x => x.offset = d.offset) = [first] →
      Refused before d (.sharedOffset first d)

theorem Refused.not_wellFormed {e : MapError} (h : Refused before d e) :
    ¬WellFormed (before ++ [d]) := by
  rw [wellFormed_append_singleton_iff]
  rintro ⟨-, hinside, hmode, hfree⟩
  cases h with
  | outside houtside => omega
  | mode _ hmismatch => exact hmismatch hmode
  | @shared first _ _ hfirst =>
    have hmem : first ∈ before.filter (fun x => x.offset = d.offset) := by
      rw [hfirst]
      exact List.mem_cons_self
    obtain ⟨hbefore, hoffset⟩ := List.mem_filter.mp hmem
    exact hfree first hbefore (of_decide_eq_true hoffset)

/-- A descriptor that fits with those in the map is added, and any other is refused. -/
theorem Tabulates.insert? (h : m.Tabulates before) (hbefore : WellFormed before) :
    (∃ m', m.insert? d = .ok m' ∧ m'.Tabulates (before ++ [d]) ∧ WellFormed (before ++ [d])) ∨
      ∃ e, m.insert? d = .error e ∧ Refused before d e := by
  have hwindow : windowSize ≤ d.offset.toUInt64 ↔ 0x1000 ≤ d.offset.toNat := by
    rw [UInt64.le_iff_toNat_le, UInt32.toNat_toUInt64]
    rfl
  unfold RegisterMap.insert?
  split
  · rename_i houtside
    exact .inr ⟨_, rfl, .outside (hwindow.mp houtside)⟩
  · rename_i hinside
    rw [hwindow, Nat.not_le] at hinside
    split
    · rename_i hmode
      exact .inr ⟨_, rfl, .mode hinside hmode⟩
    · rename_i hmode
      rw [ne_eq, Decidable.not_not] at hmode
      split
      · rename_i first hfirst
        obtain ⟨hmem, hoffset⟩ := h.lookup?_eq_some_iff.mp hfirst
        have hunique := hbefore.filter_offset_eq hmem
        rw [hoffset] at hunique
        exact .inr ⟨_, rfl, .shared hinside hmode hunique⟩
      · rename_i hnone
        have hfree := h.lookup?_eq_none_iff.mp hnone
        exact .inl ⟨_, rfl, h.insert hfree,
          wellFormed_append_singleton_iff.mpr ⟨hbefore, hinside, hmode, hfree⟩⟩

/-- All descriptors are added, or those up to the first that does not fit with those before it. -/
theorem Tabulates.insertAll? (h : m.Tabulates before) (hbefore : WellFormed before)
    (ds : List RegisterDescriptor) :
    (∃ m', m.insertAll? ds = .ok m' ∧ m'.Tabulates (before ++ ds) ∧ WellFormed (before ++ ds)) ∨
      ∃ front d back e, ds = front ++ d :: back ∧ m.insertAll? ds = .error e ∧
        WellFormed (before ++ front) ∧ Refused (before ++ front) d e := by
  induction ds generalizing m before with
  | nil =>
    rw [List.append_nil]
    exact .inl ⟨m, rfl, h, hbefore⟩
  | cons d ds ih =>
    obtain ⟨m', hok, hm', hnext⟩ | ⟨e, herror, hrefused⟩ := h.insert? (d := d) hbefore
    · simp only [RegisterMap.insertAll?, hok]
      obtain ⟨m'', hrest, hm'', hall⟩ | ⟨front, d', back, e, hsplit, hrest, hfront, hrefused⟩ :=
        ih hm' hnext
      · rw [List.append_assoc, List.singleton_append] at hm'' hall
        exact .inl ⟨m'', hrest, hm'', hall⟩
      · rw [List.append_assoc, List.singleton_append] at hfront hrefused
        exact .inr ⟨d :: front, d', back, e, by rw [hsplit]; rfl, hrest, hfront, hrefused⟩
    · simp only [RegisterMap.insertAll?, herror]
      rw [← List.append_nil before] at hbefore hrefused
      exact .inr ⟨[], d, ds, e, rfl, rfl, hbefore, hrefused⟩

/-- Building a map from a table either succeeds, or it is refused for one descriptor. -/
theorem ofList?_cases (ds : List RegisterDescriptor) :
    (∃ m, ofList? ds = .ok m ∧ m.Tabulates ds ∧ WellFormed ds) ∨
      ∃ front d back e, ds = front ++ d :: back ∧ ofList? ds = .error e ∧ WellFormed front ∧
        Refused front d e :=
  tabulates_empty.insertAll? wellFormed_nil ds

/-- A well-formed table makes up a map that holds its descriptors. -/
theorem exists_of_wellFormed (h : WellFormed ds) : ∃ m, ofList? ds = .ok m ∧ m.Tabulates ds := by
  obtain ⟨m, hok, hm, -⟩ | ⟨front, d, back, e, hsplit, -, -, hrefused⟩ := ofList?_cases ds
  · exact ⟨m, hok, hm⟩
  · -- the table up to the refused descriptor would be well-formed, too
    refine absurd (h.sublist ?_) hrefused.not_wellFormed
    rw [hsplit]
    exact ((List.nil_sublist back).cons_cons d).append_left front

theorem tabulates_of_ofList? (h : ofList? ds = .ok m) : m.Tabulates ds ∧ WellFormed ds := by
  obtain ⟨m', hok, hm', hds⟩ | ⟨_, _, _, e, -, herror, -⟩ := ofList?_cases ds
  · cases h.symm.trans hok
    exact ⟨hm', hds⟩
  · cases h.symm.trans herror

/-- What comes of a table. It makes up a map exactly if all its descriptors lie in the window, have the
mode that their semantics imply, and have offsets of their own. The map finds at every offset the
descriptor of the table that has it, holds the descriptors in strictly ascending order of their
offsets and no others, and is the same for every order of the table. A table that is refused is
refused for its first descriptor that is not well-formed together with those before it: for its
offset, else for its mode, else for the one descriptor before it with the same offset. -/
theorem ofList?_answer (ds : List RegisterDescriptor) :
    ((∃ m, ofList? ds = .ok m) ↔ WellFormed ds) ∧
      (∀ m, ofList? ds = .ok m →
        (∀ offset d, m.lookup? offset = some d ↔ d ∈ ds ∧ d.offset = offset) ∧
          m.registers.Perm ds ∧
          m.registers.Pairwise (fun d e => d.offset.toNat < e.offset.toNat) ∧
          m.size = ds.length ∧ ∀ ds', ds'.Perm ds → ofList? ds' = .ok m) ∧
      ∀ e, ofList? ds = .error e →
        ∃ front d back, ds = front ++ d :: back ∧ WellFormed front ∧ ¬WellFormed (front ++ [d]) ∧
          (0x1000 ≤ d.offset.toNat → e.toAccessError = .unmapped d.offset.toUInt64) ∧
          (d.offset.toNat < 0x1000 → d.mode ≠ d.semantics.mode →
            e.toAccessError = .device ("register " ++ d.name ++ " declared " ++ d.mode.name
              ++ " but its semantics need " ++ d.semantics.mode.name)) ∧
          (d.offset.toNat < 0x1000 → d.mode = d.semantics.mode →
            ∃ first, front.filter (fun x => x.offset = d.offset) = [first] ∧
              e.toAccessError = .device ("registers " ++ first.name ++ " and " ++ d.name
                ++ " share offset " ++ Text.hex d.offset.toNat)) := by
  refine ⟨⟨?_, ?_⟩, fun m hm => ?_, fun e he => ?_⟩
  · rintro ⟨m, hm⟩
    exact (tabulates_of_ofList? hm).2
  · intro hds
    obtain ⟨m, hok, -⟩ := exists_of_wellFormed hds
    exact ⟨m, hok⟩
  · obtain ⟨htable, hds⟩ := tabulates_of_ofList? hm
    refine ⟨fun offset d => htable.lookup?_eq_some_iff, htable.perm, htable.ascending,
      htable.perm.length_eq, fun ds' hperm => ?_⟩
    obtain ⟨m', hok, hm'⟩ := exists_of_wellFormed (hds.of_perm hperm)
    rw [hok, htable.unique ⟨hm'.perm.trans hperm, hm'.ascending⟩]
  · obtain ⟨m, hok, -⟩ | ⟨front, d, back, e', hsplit, herror, hfront, hrefused⟩ := ofList?_cases ds
    · cases he.symm.trans hok
    · cases he.symm.trans herror
      refine ⟨front, d, back, hsplit, hfront, hrefused.not_wellFormed, ?_⟩
      cases hrefused with
      | outside houtside => exact ⟨fun _ => rfl, fun _ _ => by omega, fun _ _ => by omega⟩
      | mode hinside hmismatch =>
        exact ⟨fun _ => by omega, fun _ _ => rfl, fun _ hmode => absurd hmode hmismatch⟩
      | shared hinside hmode hfirst =>
        exact ⟨fun _ => by omega, fun _ hmismatch => absurd hmode hmismatch,
          fun _ _ => ⟨_, hfirst, rfl⟩⟩

/-- Two descriptors make up the same map in either order. With a third one that has the offset of the
first they make up none, and the error names the first and the third. -/
theorem ofList?_answer_shared_offset :
    let control : RegisterDescriptor := .ofSemantics 8 "CTRL" .storage 1
    let status : RegisterDescriptor := .ofSemantics 4 "STATUS" .constant 1
    let second : RegisterDescriptor := .ofSemantics 8 "MODE" .storage 0
    (∃ m, ofList? [control, status] = .ok m ∧ ofList? [status, control] = .ok m ∧
        m.lookup? 8 = some control) ∧
      ∀ e, ofList? [control, status, second] = .error e →
        e.toAccessError = .device "registers CTRL and MODE share offset 0x8" := by
  intro control status second
  constructor
  · obtain ⟨hwell, hmap, -⟩ := ofList?_answer [control, status]
    obtain ⟨m, hm⟩ := hwell.mpr (by decide)
    obtain ⟨hlookup, -, -, -, hsame⟩ := hmap m hm
    exact ⟨m, hm, hsame _ (List.Perm.swap _ _ _), (hlookup 8 control).mpr ⟨List.mem_cons_self, rfl⟩⟩
  · intro e he
    obtain ⟨front, d, back, hsplit, -, hill, -, -, hshared⟩ := (ofList?_answer _).2.2 e he
    -- a shorter front would be well-formed together with the descriptor behind it
    match front with
    | [] =>
      cases hsplit
      exact absurd (by decide) hill
    | [_] =>
      cases hsplit
      exact absurd (by decide) hill
    | [_, _] =>
      cases hsplit
      obtain ⟨first, hfirst, htext⟩ := hshared (by decide) rfl
      cases (hfirst : [control] = [first])
      exact htext.trans (by cbv)
    | _ :: _ :: _ :: front => simp at hsplit

end RegisterMap

end RemoteRegisters
