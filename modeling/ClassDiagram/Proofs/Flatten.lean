import ClassDiagram.Proofs.Walk
import Mathlib.Data.Set.Basic

/-! Flattening goes up the walk of a class. It puts the levels of the walk one behind the other,
the far end first, or it stops at the first name that comes back; and it never nests more calls
than there are class names, and one. -/

namespace ClassDiagram

/-- The places of a walk whose names stand on it before. -/
def Model.returns (m : Model) (name : String) : Set ℕ :=
  {k | (m.nameWalk name k).isSome ∧ ∃ i < k, m.nameWalk name i = m.nameWalk name k}

/-- The first `n` classes of the walk from `c` exist, and no name stands twice among theirs and
those of the chain. -/
structure Climbs (m : Model) (chain : List String) (c : Class) (n : ℕ) : Prop where
  isSome : ∀ i < n, (m.walk c i).isSome
  nodup : (chain ++ (m.walkTo c n).map (·.name)).Nodup

theorem Climbs.zero {m : Model} {chain : List String} {c : Class} (h : chain.Nodup) :
    Climbs m chain c 0 := ⟨by simp, by simpa [Model.walkTo] using h⟩

theorem Climbs.one {m : Model} {chain : List String} {c : Class} (h : chain.Nodup)
    (hc : c.name ∉ chain) : Climbs m chain c 1 := by
  refine ⟨fun i hi => ?_, ?_⟩
  · obtain rfl : i = 0 := by omega
    rfl
  · rw [Model.walkTo_one]
    exact h.append (List.nodup_singleton _) (List.disjoint_singleton.2 hc)

theorem Climbs.succ {m : Model} {chain : List String} {c p : Class} {n : ℕ}
    (hp : m.walk c 1 = some p) (h : Climbs m (chain ++ [c.name]) p n) :
    Climbs m chain c (n + 1) := by
  refine ⟨fun i hi => ?_, ?_⟩
  · cases i with
    | zero => rfl
    | succ i => rw [Model.walk_of_parent hp]; exact h.isSome i (by omega)
  · rw [Model.walkTo_succ_of_parent hp]
    simpa using h.nodup

theorem Climbs.names {m : Model} {chain : List String} {c : Class} {n : ℕ}
    (h : Climbs m chain c n) :
    ((m.walkTo c n).map (·.name)).map some = (List.range n).map (m.nameWalk c.name) :=
  Model.names_walkTo h.isSome

theorem Climbs.inj {m : Model} {chain : List String} {c : Class} {n : ℕ} (h : Climbs m chain c n)
    {i j : ℕ} (hi : i < n) (hj : j < n) (he : m.nameWalk c.name i = m.nameWalk c.name j) :
    i = j := by
  have hnd : ((List.range n).map (m.nameWalk c.name)).Nodup := by
    rw [← h.names]
    exact (List.nodup_append.1 h.nodup).2.1.map fun _ _ => Option.some.inj
  exact List.inj_on_of_nodup_map hnd (List.mem_range.2 hi) (List.mem_range.2 hj) he

theorem Climbs.returns_eq_empty {m : Model} {chain : List String} {c : Class} {n : ℕ}
    (h : Climbs m chain c n) (hend : m.walk c n = none) : m.returns c.name = ∅ := by
  refine Set.eq_empty_iff_forall_notMem.2 ?_
  rintro k ⟨hk, i, hik, he⟩
  have hkn : k < n := by
    by_contra hge
    rw [Model.nameWalk_eq, Model.walk_none_of_le hend (by omega)] at hk
    exact absurd hk (by simp)
  exact absurd (h.inj (by omega) hkn he) (by omega)

/-- Above distinct names, the first name that is one of them is the first return. -/
theorem Climbs.isLeast_returns {m : Model} {chain : List String} {c : Class} {n : ℕ}
    (h : Climbs m chain c n) {name : String} (hw : m.nameWalk c.name n = some name)
    (hmem : name ∈ (m.walkTo c n).map (·.name)) : IsLeast (m.returns c.name) n := by
  have hs : some name ∈ (List.range n).map (m.nameWalk c.name) := h.names ▸ List.mem_map_of_mem hmem
  obtain ⟨i, hi, he⟩ := List.mem_map.1 hs
  refine ⟨⟨by rw [hw]; rfl, i, List.mem_range.1 hi, he.trans hw.symm⟩, ?_⟩
  rintro k ⟨-, j, hj, hjk⟩
  by_contra hlt
  exact absurd (h.inj (by omega) (by omega) hjk) (by omega)

/-- As the names are distinct, no more classes are climbed than there are class names. -/
theorem Climbs.length_le {m : Model} {chain : List String} {c : Class} {n : ℕ}
    (h : Climbs m chain c n) (hc : c ∈ m.classes) :
    (m.walkTo c n).length ≤ (m.classes.map (·.name)).dedup.length := by
  have hs : (m.walkTo c n).map (·.name) ⊆ (m.classes.map (·.name)).dedup := by
    intro a ha
    obtain ⟨d, hd, rfl⟩ := List.mem_map.1 ha
    obtain ⟨k, -, hk⟩ := List.mem_filterMap.1 hd
    exact List.mem_dedup.2 (List.mem_map_of_mem (Model.walk_mem hc hk))
  simpa using (List.nodup_append.1 h.nodup).2.1.length_le_of_subset hs

namespace Converter

variable {h : Heuristics} {m : Model}

theorem flatten_of_mem (k : Converter) {chain : List String} {c : Class} (hc : c.name ∈ chain) :
    k.flatten chain c = .error (.cyclicInheritance c.name (chain ++ [c.name])) := by
  rw [flatten, dif_pos hc]

theorem flatten_of_not_mem (k : Converter) {chain : List String} {c : Class} (hc : c.name ∉ chain) :
    k.flatten chain c = match k.index.parentClass? c.name with
      | none => .ok (k.levelFields c)
      | some p => (k.flatten (chain ++ [c.name]) p).map (· ++ k.levelFields c) := by
  rw [flatten, dif_neg hc]
  split
  · next hp => rw [hp]
  · next p hp =>
    rw [hp]
    dsimp only
    cases k.flatten (chain ++ [c.name]) p <;> rfl

theorem levelFields_eq (h : Heuristics) (m : Model) (c : Class) :
    (ofModel h m).levelFields c =
      (m.levelAttributes c).map ((ofModel h m).attributeSchema c.name) := by
  unfold levelFields interfaceFields Model.levelAttributes
  rw [List.map_append, List.map_flatMap]
  congr 1
  apply List.flatMap_congr
  intro r _
  rw [show (ofModel h m).index.interfaces.find? r.source = m.lastInterface? r.source from
    Index.interfaces_find? m r.source]
  cases m.lastInterface? r.source <;> rfl

theorem parentClass?_eq (h : Heuristics) (m : Model) (c : Class) :
    (ofModel h m).index.parentClass? c.name = m.walk c 1 := Index.parentClass?_ofModel m c.name

/-- Flattening after a chain climbs the walk to its end, or to the first class whose name it has
met; the chain and the names on the way are distinct. -/
theorem flatten_climbs (chain : List String) (c : Class) (hn : chain.Nodup) :
    (∃ n, Climbs m chain c n ∧ m.walk c n = none ∧
      (ofModel h m).flatten chain c =
        .ok ((m.walkTo c n).reverse.flatMap (ofModel h m).levelFields)) ∨
    (∃ n d, Climbs m chain c n ∧ m.walk c n = some d ∧
      d.name ∈ chain ++ (m.walkTo c n).map (·.name) ∧
      (ofModel h m).flatten chain c = .error
        (.cyclicInheritance d.name (chain ++ (m.walkTo c n).map (·.name) ++ [d.name]))) := by
  induction hu : (ofModel h m).index.unseen chain c using Nat.strongRecOn
    generalizing chain c with
  | ind u ih =>
    by_cases hc : c.name ∈ chain
    · exact .inr ⟨0, c, .zero hn, rfl, by simpa [Model.walkTo] using hc,
        by rw [flatten_of_mem _ hc]; simp [Model.walkTo]⟩
    rw [flatten_of_not_mem _ hc]
    cases hp : (ofModel h m).index.parentClass? c.name with
    | none =>
      have hw : m.walk c 1 = none := by rw [← parentClass?_eq h, hp]
      exact .inl ⟨1, .one hn hc, hw, by simp [Model.walkTo_one]⟩
    | some p =>
      have hw : m.walk c 1 = some p := by rw [← parentClass?_eq h, hp]
      have hn' : (chain ++ [c.name]).Nodup :=
        hn.append (List.nodup_singleton _) (List.disjoint_singleton.2 hc)
      rcases ih _ (hu ▸ Index.unseen_lt hc hp) (chain ++ [c.name]) p hn' rfl with
        ⟨n, hcl, hend, hf⟩ | ⟨n, d, hcl, hd, hmem, hf⟩
      · refine .inl ⟨n + 1, hcl.succ hw, by rw [Model.walk_of_parent hw, hend], ?_⟩
        simp [hf, Except.map, Model.walkTo_succ_of_parent hw]
      · refine .inr ⟨n + 1, d, hcl.succ hw, by rw [Model.walk_of_parent hw, hd], ?_, ?_⟩
        · simpa [Model.walkTo_succ_of_parent hw] using hmem
        · simp [hf, Except.map, Model.walkTo_succ_of_parent hw]

/-- Flattening with at most `d` calls nested in one another and chains of at most `len` names;
nothing where these do not suffice. -/
def flattenWithin (k : Converter) (len : ℕ) :
    ℕ → List String → Class → Option (Except SchemaError (List AttributeSchema))
  | 0, _, _ => none
  | d + 1, chain, c =>
    if len < (chain ++ [c.name]).length then none
    else if c.name ∈ chain then some (.error (.cyclicInheritance c.name (chain ++ [c.name])))
    else
      match k.index.parentClass? c.name with
      | none => some (.ok (k.levelFields c))
      | some p => (flattenWithin k len d (chain ++ [c.name]) p).map (·.map (· ++ k.levelFields c))

/-- A chain of distinct class names leaves room for as many calls as it lacks names, and one. -/
theorem flattenWithin_eq (d : ℕ) {len : ℕ} {chain : List String} {c : Class} (hn : chain.Nodup)
    (hs : chain ⊆ m.classes.map (·.name)) (hc : c ∈ m.classes)
    (hlen : (m.classes.map (·.name)).dedup.length < len)
    (hd : (m.classes.map (·.name)).dedup.length < d + chain.length) :
    (ofModel h m).flattenWithin len d chain c = some ((ofModel h m).flatten chain c) := by
  have hle : chain.length ≤ (m.classes.map (·.name)).dedup.length :=
    hn.length_le_of_subset fun a ha => List.mem_dedup.2 (hs ha)
  induction d generalizing chain c with
  | zero => omega
  | succ d ih =>
    have hroom : ¬ len < (chain ++ [c.name]).length := by simp; omega
    unfold flattenWithin
    rw [if_neg hroom]
    split
    · next hmem => rw [flatten_of_mem _ hmem]
    · next hmem =>
      rw [flatten_of_not_mem _ hmem]
      cases hp : (ofModel h m).index.parentClass? c.name with
      | none => rfl
      | some p =>
        have hw : m.walk c 1 = some p := by rw [← parentClass?_eq h, hp]
        have hn' : (chain ++ [c.name]).Nodup :=
          hn.append (List.nodup_singleton _) (List.disjoint_singleton.2 hmem)
        have hs' : chain ++ [c.name] ⊆ m.classes.map (·.name) :=
          List.append_subset.2 ⟨hs, by simpa using List.mem_map_of_mem hc⟩
        have hle' := hn'.length_le_of_subset fun a ha => List.mem_dedup.2 (hs' ha)
        dsimp only
        rw [ih hn' hs' (Model.walk_mem hc hw) (by simp; omega) hle']
        rfl

/-- A class gets its schema from the whole walk, or an error from the part up to the first
return. -/
theorem convertClass_climbs (h : Heuristics) (m : Model) (c : Class) :
    (∃ n, Climbs m [] c n ∧ m.walk c n = none ∧
      (ofModel h m).convertClass c = .ok
        { name := c.name
          icon := h.icon
          title := h.title c
          attributes := (m.walkTo c n).reverse.flatMap fun w =>
            (m.levelAttributes w).map ((ofModel h m).attributeSchema w.name)
          permissions := Permissions.all
          derivesFrom := m.firstParent? c.name }) ∨
    (∃ n name, Climbs m [] c n ∧ m.nameWalk c.name n = some name ∧
      name ∈ (m.walkTo c n).map (·.name) ∧
      (ofModel h m).convertClass c =
        .error (.cyclicInheritance name ((m.walkTo c n).map (·.name) ++ [name]))) := by
  rcases flatten_climbs (h := h) (m := m) [] c List.nodup_nil with
    ⟨n, hcl, hend, hf⟩ | ⟨n, d, hcl, hd, hmem, hf⟩
  · refine .inl ⟨n, hcl, hend, ?_⟩
    have hl : (ofModel h m).levelFields = fun w =>
        (m.levelAttributes w).map ((ofModel h m).attributeSchema w.name) :=
      funext (levelFields_eq h m)
    have hp : (ofModel h m).index.parents.find? c.name = m.firstParent? c.name :=
      Index.parents_find? m c.name
    rw [convertClass, hf, hl, hp]
    rfl
  · refine .inr ⟨n, d.name, hcl, by rw [Model.nameWalk_eq, hd]; rfl, by simpa using hmem, ?_⟩
    rw [convertClass, hf]
    rfl

/-- A schema holds the fields of the walk from its class, the far end first, and it derives from the
parent that is first named, whether that is a class or not. -/
theorem convertClass_fields {c : Class} {s : ClassSchema}
    (hs : (ofModel h m).convertClass c = .ok s) :
    ∃ n, (∀ k, (m.walk c k).isSome ↔ k < n) ∧
      s.attributes = (m.walkTo c n).reverse.flatMap (fun w =>
        (m.levelAttributes w).map ((ofModel h m).attributeSchema w.name)) ∧
      s.derivesFrom = m.firstParent? c.name := by
  rcases convertClass_climbs h m c with ⟨n, hcl, hend, hf⟩ | ⟨n, name, -, -, -, hf⟩
  · obtain rfl := Except.ok.inj (hf.symm.trans hs)
    refine ⟨n, fun k => ⟨fun hk => ?_, hcl.isSome k⟩, rfl, rfl⟩
    by_contra hge
    rw [Model.walk_none_of_le hend (by omega)] at hk
    exact absurd hk (by simp)
  · rw [hf] at hs
    cases hs

/-- Two classes `B`, of which the last counts, above `A`; the parent of `B` is no class, and `B` has
an interface. -/
def twoLevels : Model :=
  { classes := [⟨"A", "A", none, [⟨"x", "B[0..n]", none⟩], []⟩, ⟨"B", "B", none, [], []⟩,
      ⟨"B", "B", none, [⟨"y", "Int", none⟩], []⟩]
    interfaces := [⟨"I", none, [⟨"z", "String", none⟩]⟩]
    enums := []
    relations := [⟨"A", "B", .inheritance⟩, ⟨"I", "B", .implementation⟩, ⟨"B", "X", .inheritance⟩,
      ⟨"A", "X", .inheritance⟩]
    packages := [] }

theorem convertClass_fields_twoLevels :
    ∃ s, (ofModel Heuristics.standard twoLevels).convertClass
        ⟨"A", "A", none, [⟨"x", "B[0..n]", none⟩], []⟩ = .ok s ∧
      s.attributes.map (·.name) = ["z", "y", "x"] ∧ s.derivesFrom = some "B" ∧
      ∃ n, s.attributes =
        (twoLevels.walkTo ⟨"A", "A", none, [⟨"x", "B[0..n]", none⟩], []⟩ n).reverse.flatMap fun w =>
          (twoLevels.levelAttributes w).map
            ((ofModel Heuristics.standard twoLevels).attributeSchema w.name) := by
  have hok : (((ofModel Heuristics.standard twoLevels).convertClass
      ⟨"A", "A", none, [⟨"x", "B[0..n]", none⟩], []⟩).toOption.map fun s =>
        (s.attributes.map (·.name), s.derivesFrom)) = some (["z", "y", "x"], some "B") := by
    decide +kernel
  cases hs : (ofModel Heuristics.standard twoLevels).convertClass
      ⟨"A", "A", none, [⟨"x", "B[0..n]", none⟩], []⟩ with
  | error e => rw [hs] at hok; cases hok
  | ok s =>
    rw [hs] at hok
    obtain ⟨hnames, hparent⟩ := Prod.mk.inj (Option.some.inj hok)
    obtain ⟨n, -, hfields, -⟩ := convertClass_fields hs
    exact ⟨s, rfl, hnames, hparent, n, hfields⟩

/-- A declared class has no schema just where a name comes back on the walk from it. What is wrong
is then the walk up to the first return. Flattening never nests more calls than there are class
names, and one, and no chain has more names. -/
theorem convertClass_cyclic (h : Heuristics) (m : Model) (c : Class) (hc : c ∈ m.classes) :
    ((∃ e, (ofModel h m).convertClass c = .error e) ↔ (m.returns c.name).Nonempty) ∧
    (∀ e, (ofModel h m).convertClass c = .error e →
      ∃ k name chain, e = .cyclicInheritance name chain ∧ IsLeast (m.returns c.name) k ∧
        m.nameWalk c.name k = some name ∧
        chain.map some = (List.range (k + 1)).map (m.nameWalk c.name) ∧
        chain.length ≤ (m.classes.map (·.name)).dedup.length + 1) ∧
    (ofModel h m).flattenWithin ((m.classes.map (·.name)).dedup.length + 1)
        ((m.classes.map (·.name)).dedup.length + 1) [] c =
      some ((ofModel h m).flatten [] c) := by
  refine ⟨?_, ?_, flattenWithin_eq _ List.nodup_nil (by simp) hc (by simp) (by simp)⟩
  · rcases convertClass_climbs h m c with ⟨n, hcl, hend, hf⟩ | ⟨n, name, hcl, hw, hmem, hf⟩
    · rw [hf, hcl.returns_eq_empty hend]
      simp
    · rw [hf]
      exact ⟨fun _ => ⟨n, (hcl.isLeast_returns hw hmem).1⟩, fun _ => ⟨_, rfl⟩⟩
  · intro e he
    rcases convertClass_climbs h m c with ⟨n, -, -, hf⟩ | ⟨n, name, hcl, hw, hmem, hf⟩
    · rw [hf] at he
      cases he
    · obtain rfl := Except.error.inj (hf.symm.trans he)
      refine ⟨n, name, _, rfl, hcl.isLeast_returns hw hmem, hw, ?_, ?_⟩
      · simp [hcl.names, List.range_succ, hw]
      · have hle := hcl.length_le hc
        simpa using hle

/-- A walk from `A` into the cycle of `B` and `C`. -/
def tailedCycle : Model :=
  { classes := [⟨"A", "A", none, [], []⟩, ⟨"B", "B", none, [], []⟩, ⟨"C", "C", none, [], []⟩]
    interfaces := []
    enums := []
    relations := [⟨"A", "B", .inheritance⟩, ⟨"B", "C", .inheritance⟩, ⟨"C", "B", .inheritance⟩]
    packages := [] }

theorem convertClass_cyclic_tailedCycle :
    ⟨"A", "A", none, [], []⟩ ∈ tailedCycle.classes ∧
      ∃ e, (ofModel Heuristics.standard tailedCycle).convertClass ⟨"A", "A", none, [], []⟩ =
        .error e := by
  have hc : (⟨"A", "A", none, [], []⟩ : Class) ∈ tailedCycle.classes := by simp [tailedCycle]
  -- The name at place three is that at place one.
  exact ⟨hc, (convertClass_cyclic _ _ _ hc).1.2 ⟨3, by decide, 1, by decide, by decide⟩⟩

end Converter

end ClassDiagram
