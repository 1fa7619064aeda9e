import ClassDiagram.Proofs.Mention
import Mathlib.Combinatorics.SimpleGraph.Metric

/-! The order within components and among them. A search calls a name when it comes to the first of
its neighbours, so the names are called in the order of their callers. As a caller stands before
those that it calls, the order of callers is that of distance, too. -/

namespace ClassDiagram.Layout

/-! ### One search -/

section Search

variable {next : String → List String} {meets : String → String → String → Prop}
  {queue found new unseen names : List String} {name x y : String}

/-- Where the first name stands that leads to `x`. -/
def caller (next : String → List String) (names : List String) (x : String) : ℕ :=
  names.findIdx fun p => x ∈ next p

theorem caller_of_mem (h : x ∈ next name) (names : List String) :
    caller next (name :: names) x = 0 := by
  simp [caller, List.findIdx_cons, h]

theorem caller_of_not_mem (h : x ∉ next name) (names : List String) :
    caller next (name :: names) x = caller next names x + 1 := by
  simp [caller, List.findIdx_cons, h]

theorem exists_of_caller_lt (h : caller next names x < names.length) :
    ∃ p, names[caller next names x]? = some p ∧ x ∈ next p := by
  have hleads := @List.findIdx_getElem _ (fun p => decide (x ∈ next p)) names h
  exact ⟨_, List.getElem?_eq_getElem h, of_decide_eq_true hleads⟩

theorem caller_le {i : ℕ} {p : String} (hp : names[i]? = some p) (hx : x ∈ next p) :
    caller next names x ≤ i := by
  refine Nat.le_of_not_lt fun hlt => ?_
  obtain ⟨hi, rfl⟩ := List.getElem?_eq_some_iff.1 hp
  have hnot := List.not_of_lt_findIdx hlt
  simp [hx] at hnot

/-- `x` is called before `y`: from an earlier place, or from the same one, by a name that meets it
before `y`. -/
def Sooner (next : String → List String) (meets : String → String → String → Prop)
    (names : List String) (x y : String) : Prop :=
  caller next names x < caller next names y ∨
    caller next names x = caller next names y ∧
      ∃ p, names[caller next names x]? = some p ∧ meets p x y

theorem Sooner.caller_le (h : Sooner next meets names x y) :
    caller next names x ≤ caller next names y := by
  rcases h with h | h
  · exact h.le
  · exact h.1.le

theorem Sooner.cons (hx : x ∉ next name) (hy : y ∉ next name) (h : Sooner next meets names x y) :
    Sooner next meets (name :: names) x y := by
  unfold Sooner
  rw [caller_of_not_mem hx, caller_of_not_mem hy]
  rcases h with h | ⟨h, p, hp, hmeets⟩
  · exact .inl (Nat.succ_lt_succ h)
  · exact .inr ⟨congrArg (· + 1) h, p, hp, hmeets⟩

/-- Names that a search finds behind its queue, each called from a place before its own. -/
structure BreadthFirst (next : String → List String) (meets : String → String → String → Prop)
    (queue found : List String) : Prop where
  called : ∀ i x, found[i]? = some x → caller next (queue ++ found) x < queue.length + i
  ordered : found.Pairwise (Sooner next meets (queue ++ found))

/-- The names found beside the first name of a queue come before those that are found later. -/
theorem BreadthFirst.step (h : BreadthFirst next meets (queue ++ found) new)
    (hfound : ∀ x ∈ found, x ∈ next name) (hmeets : found.Pairwise (meets name))
    (hnew : ∀ x ∈ new, x ∉ next name) : BreadthFirst next meets (name :: queue) (found ++ new) := by
  have hnames : name :: queue ++ (found ++ new) = name :: (queue ++ found ++ new) := by simp
  constructor
  · intro i x hx
    rw [hnames]
    by_cases hi : i < found.length
    · rw [List.getElem?_append_left hi] at hx
      rw [caller_of_mem (hfound x (List.mem_of_getElem? hx)), List.length_cons]
      omega
    · rw [List.getElem?_append_right (Nat.le_of_not_lt hi)] at hx
      have hcalled := h.called _ _ hx
      rw [caller_of_not_mem (hnew x (List.mem_of_getElem? hx)), List.length_cons]
      rw [List.length_append] at hcalled
      omega
  · rw [hnames, List.pairwise_append]
    refine ⟨?_, ?_, ?_⟩
    · refine hmeets.imp_of_mem fun hx hy hxy => .inr ?_
      rw [caller_of_mem (hfound _ hx), caller_of_mem (hfound _ hy)]
      exact ⟨rfl, name, rfl, hxy⟩
    · exact h.ordered.imp_of_mem fun hx hy hxy => hxy.cons (hnew _ hx) (hnew _ hy)
    · intro x hx y hy
      left
      rw [caller_of_mem (hfound x hx), caller_of_not_mem (hnew y hy)]
      exact Nat.succ_pos _

theorem visit_breadthFirst (hmeets : ∀ a, (next a).eraseDups.Pairwise (meets a))
    (unseen queue : List String) : ∃ found ⊆ unseen,
      (visit next unseen queue).1 = queue ++ found ∧ BreadthFirst next meets queue found := by
  fun_induction visit next unseen queue with
  | case1 unseen => exact ⟨[], List.nil_subset _, rfl, by simp, .nil⟩
  | case2 unseen name queue found reached ih =>
    obtain ⟨new, hsubset, hreached, horder⟩ := ih
    have hfound : ∀ x ∈ found, x ∈ next name ∧ x ∈ unseen := fun x hx => mem_discover.1 hx
    have hnew : ∀ x ∈ new, x ∈ unseen ∧ x ∉ found := fun x hx => mem_remaining.1 (hsubset hx)
    refine ⟨found ++ new, ?_, ?_, ?_⟩
    · intro x hx
      rcases List.mem_append.1 hx with hx | hx
      · exact (hfound x hx).2
      · exact (hnew x hx).1
    · simp [reached, hreached]
    · refine horder.step (fun x hx => (hfound x hx).1) ?_ fun x hx hn => ?_
      · have hsorted : found = (next name).eraseDups.filter (· ∈ unseen) :=
          (filter_eraseDups _ _).symm
        rw [hsorted]
        exact (hmeets name).filter _
      · exact (hnew x hx).2 (mem_discover.2 ⟨hn, (hnew x hx).1⟩)

/-! ### All searches -/

theorem mem_of_mem_componentsOf {c : List String} (hn : names.Nodup)
    (hc : c ∈ componentsOf next names) (hx : x ∈ c) : x ∈ names :=
  (flatten_componentsOf next hn).mem_iff.1 (List.mem_flatten_of_mem hc hx)

variable {earlier : String → String → Prop}

/-- Each search starts at the first name that those before it have left. -/
theorem componentsOf_heads (hn : names.Nodup) (h : names.Pairwise earlier) :
    (componentsOf next names).Pairwise fun c d => ∀ a ∈ c.head?, ∀ b ∈ d, earlier a b := by
  fun_induction componentsOf next names with
  | case1 => exact .nil
  | case2 start names reached ih =>
    obtain ⟨hstart, h⟩ := List.pairwise_cons.1 h
    have hn := (List.nodup_cons.1 hn).2
    have hleft : reached.2.Sublist names := visit_left_sublist next names [start]
    refine List.pairwise_cons.2 ⟨?_, ih (hn.sublist hleft) (h.sublist hleft)⟩
    intro d hd a ha b hb
    have hhead : reached.1.head? = some start := by simp [reached, visit_cons]
    obtain rfl : start = a := Option.some.inj (hhead.symm.trans ha)
    exact hstart b (hleft.subset (mem_of_mem_componentsOf (hn.sublist hleft) hd hb))

theorem componentsOf_breadthFirst (hmeets : ∀ a, (next a).eraseDups.Pairwise (meets a))
    (h : names.Pairwise earlier) : ∀ c ∈ componentsOf next names, ∃ start rest, c = start :: rest ∧
      (∀ x ∈ rest, earlier start x) ∧ BreadthFirst next meets [start] rest := by
  fun_induction componentsOf next names with
  | case1 => simp
  | case2 start names reached ih =>
    obtain ⟨hstart, h⟩ := List.pairwise_cons.1 h
    have hleft : reached.2.Sublist names := visit_left_sublist next names [start]
    intro c hc
    rcases List.mem_cons.1 hc with rfl | hc
    · obtain ⟨rest, hsubset, hreached, horder⟩ := visit_breadthFirst hmeets names [start]
      exact ⟨start, rest, hreached, fun x hx => hstart x (hsubset hx), horder⟩
    · exact ih (h.sublist hleft) c hc

/-! ### Distances -/

variable {G : SimpleGraph String} {start : String} {rest : List String}

theorem BreadthFirst.caller_lt (h : BreadthFirst next meets [start] rest) {i : ℕ} (hi : 0 < i)
    (hx : (start :: rest)[i]? = some x) : caller next (start :: rest) x < i := by
  obtain ⟨i, rfl⟩ := Nat.exists_eq_succ_of_ne_zero hi.ne'
  have hcalled := h.called i x hx
  rwa [Nat.add_comm] at hcalled

theorem BreadthFirst.caller_mono (h : BreadthFirst next meets [start] rest) {i j : ℕ} (hi : 0 < i)
    (hij : i ≤ j) (hx : (start :: rest)[i]? = some x) (hy : (start :: rest)[j]? = some y) :
    caller next (start :: rest) x ≤ caller next (start :: rest) y := by
  rcases Nat.eq_or_lt_of_le hij with rfl | hij
  · obtain rfl : x = y := Option.some.inj (hx.symm.trans hy)
    exact Nat.le_refl _
  · obtain ⟨i, rfl⟩ := Nat.exists_eq_succ_of_ne_zero hi.ne'
    obtain ⟨j, rfl⟩ := Nat.exists_eq_succ_of_ne_zero (hi.trans hij).ne'
    obtain ⟨hi, rfl⟩ := List.getElem?_eq_some_iff.1 hx
    obtain ⟨hj, rfl⟩ := List.getElem?_eq_some_iff.1 hy
    exact (List.pairwise_iff_getElem.1 h.ordered i j _ _ (Nat.lt_of_succ_lt_succ hij)).caller_le

/-- A name that does not stand behind another is no further from the start. A path from the later
name begins with a step to a neighbour, which stands no earlier than the caller of that name, and so
no earlier than the caller of the other. -/
theorem BreadthFirst.exists_walk (h : BreadthFirst next meets [start] rest)
    (hnext : ∀ p x, x ∈ next p ↔ G.Adj p x) (hn : start ∉ rest)
    (hclosed : ∀ a ∈ start :: rest, ∀ b, G.Adj a b → b ∈ start :: rest)
    {z : String} (hz : z = start) (w : G.Walk y z) {i j : ℕ} (hij : i ≤ j)
    (hx : (start :: rest)[i]? = some x) (hy : (start :: rest)[j]? = some y) :
    ∃ u : G.Walk x start, u.length ≤ w.length := by
  have hfirst {i : ℕ} {x : String} (hi : i = 0) (hx : (start :: rest)[i]? = some x) : start = x := by
    subst hi
    exact Option.some.inj hx
  induction w generalizing i j x with
  | nil =>
    have hj : j = 0 := by
      cases j with
      | zero => rfl
      | succ j => exact absurd (hz ▸ List.mem_of_getElem? hy) hn
    obtain rfl := hfirst (Nat.le_zero.1 (hj ▸ hij)) hx
    exact ⟨.nil, Nat.le_refl _⟩
  | @cons y v z hadj w ih =>
    rcases Nat.eq_zero_or_pos i with hi | hi
    · obtain rfl := hfirst hi hx
      exact ⟨.nil, Nat.zero_le _⟩
    · obtain ⟨k, hk⟩ := List.mem_iff_getElem?.1 (hclosed y (List.mem_of_getElem? hy) v hadj)
      have hlt := h.caller_lt hi hx
      have hlength := (List.getElem?_eq_some_iff.1 hx).1
      obtain ⟨p, hp, hcalls⟩ := exists_of_caller_lt (hlt.trans hlength)
      have hle : caller next (start :: rest) x ≤ k :=
        (h.caller_mono hi hij hx hy).trans (caller_le hk ((hnext v y).2 hadj.symm))
      obtain ⟨u, hu⟩ := ih hz hle hp hk
      exact ⟨.cons ((hnext p x).1 hcalls).symm u, Nat.succ_le_succ hu⟩

theorem BreadthFirst.dist_pairwise (h : BreadthFirst next meets [start] rest)
    (hnext : ∀ p x, x ∈ next p ↔ G.Adj p x) (hn : start ∉ rest)
    (hclosed : ∀ a ∈ start :: rest, ∀ b, G.Adj a b → b ∈ start :: rest)
    (hreach : ∀ x ∈ start :: rest, G.Reachable start x) :
    (start :: rest).Pairwise fun x y => G.dist start x ≤ G.dist start y := by
  refine List.pairwise_iff_getElem.2 fun i j hi hj hij => ?_
  obtain ⟨w, hw⟩ := (hreach _ (List.getElem_mem hj)).symm.exists_walk_length_eq_dist
  obtain ⟨u, hu⟩ := h.exists_walk hnext hn hclosed rfl w hij.le (List.getElem?_eq_getElem hi)
    (List.getElem?_eq_getElem hj)
  calc G.dist start (start :: rest)[i]
      = G.dist (start :: rest)[i] start := G.dist_comm
    _ ≤ u.length := G.dist_le u
    _ ≤ w.length := hu
    _ = G.dist start (start :: rest)[j] := hw.trans G.dist_comm

end Search

/-! ### Drawings -/

/-- The names of a drawing, each joined with the others that it has a relation with. -/
def graph (nodes : List String) (relations : List Relation) : SimpleGraph String where
  Adj a b := a ≠ b ∧ Linked nodes relations a b
  symm := ⟨fun _ _ h => ⟨h.1.symm, h.2.symm⟩⟩
  loopless := ⟨fun _ h => h.1 rfl⟩

instance (nodes : List String) (relations : List Relation) :
    DecidableRel (graph nodes relations).Adj := fun a b =>
  inferInstanceAs (Decidable (a ≠ b ∧ a ∈ nodes ∧ b ∈ nodes ∧ ∃ r ∈ relations, r.joins a b))

variable {nodes : List String} {relations : List Relation} {a b : String}

def adjacent (nodes : List String) (relations : List Relation) (a : String) : List String :=
  (neighbours relations a).filter fun b => (graph nodes relations).Adj a b

theorem mem_adjacent : b ∈ adjacent nodes relations a ↔ (graph nodes relations).Adj a b := by
  simp only [adjacent, List.mem_filter, decide_eq_true_eq]
  exact and_iff_right_of_imp fun h => mem_neighbours.2 h.2.2.2

theorem sameSearch_adjacent (nodes : List String) (relations : List Relation) :
    SameSearch nodes (neighbours relations) (adjacent nodes relations) := by
  intro unseen hunseen a ha hseen
  rw [discover, discover, adjacent, List.filter_filter]
  congr 1
  refine List.filter_congr fun b hb => ?_
  have hadj : b ∈ unseen → (graph nodes relations).Adj a b := fun hmem =>
    ⟨fun h => hseen (h ▸ hmem), ha, hunseen hmem, mem_neighbours.1 hb⟩
  by_cases hmem : b ∈ unseen
  · simp [hmem, hadj hmem]
  · simp [hmem]

/-- The index of the first relation that joins two names. -/
def firstMention (relations : List Relation) (a b : String) : ℕ :=
  relations.findIdx (·.joins a b)

theorem eq_of_joins {r : Relation} {x y : String} (hx : r.joins a x) (hy : r.joins a y) : x = y := by
  simp only [Relation.joins, Bool.or_eq_true, Bool.and_eq_true, decide_eq_true_eq] at hx hy
  rcases hx with ⟨hs, ht⟩ | ⟨hs, ht⟩ <;> rcases hy with ⟨hs', ht'⟩ | ⟨hs', ht'⟩ <;> simp_all

theorem firstMention_lt {x y : String}
    (h : (neighbours relations a).idxOf x < (neighbours relations a).idxOf y) :
    firstMention relations a x < firstMention relations a y := by
  induction relations with
  | nil => simp [neighbours] at h
  | cons r relations ih =>
    rw [neighbours_cons] at h
    unfold firstMention
    rw [List.findIdx_cons, List.findIdx_cons]
    cases hx : r.joins a x with
    | true =>
      have hy : r.joins a y = false := by
        refine Bool.eq_false_iff.2 fun hy => ?_
        rw [eq_of_joins hx hy] at h
        exact Nat.lt_irrefl _ h
      simp [hy]
    | false =>
      have hxe : x ∉ farEnds a r := by simp [mem_farEnds, hx]
      rw [List.idxOf_append_of_notMem hxe] at h
      cases hy : r.joins a y with
      | true =>
        have hye : y ∈ farEnds a r := mem_farEnds.2 hy
        have hlt := List.idxOf_lt_length_iff.2 hye
        rw [List.idxOf_append_of_mem hye] at h
        omega
      | false =>
        have hye : y ∉ farEnds a r := by simp [mem_farEnds, hy]
        rw [List.idxOf_append_of_notMem hye] at h
        exact Nat.succ_lt_succ (ih (Nat.lt_of_add_lt_add_left h))

theorem firstMention_pairwise (nodes : List String) (relations : List Relation) (a : String) :
    (adjacent nodes relations a).eraseDups.Pairwise fun x y =>
      firstMention relations a x < firstMention relations a y := by
  rw [adjacent, ← filter_eraseDups]
  exact ((pairwise_idxOf_eraseDups _).imp firstMention_lt).filter _

theorem reachable_of_linked (h : Relation.ReflTransGen (Linked nodes relations) a b) :
    (graph nodes relations).Reachable a b := by
  induction h with
  | refl => exact .refl a
  | @tail b c _ hlink ih =>
    by_cases hne : b = c
    · exact hne ▸ ih
    · exact ih.trans (SimpleGraph.Adj.reachable ⟨hne, hlink⟩)

/-- Where the earliest neighbour of a name stands in a component. -/
def earliestNeighbour (nodes : List String) (relations : List Relation) (names : List String)
    (x : String) : ℕ :=
  names.findIdx fun p => (graph nodes relations).Adj p x

theorem caller_adjacent (names : List String) (x : String) :
    caller (adjacent nodes relations) names x = earliestNeighbour nodes relations names x := by
  simp only [caller, earliestNeighbour, mem_adjacent]

/-- Components come in the order of their first names in the drawing, each of which is the earliest
name of its component there. Within a component, the names stand in the order of their distance from
the first one. Each later name is adjacent to an earlier one, and the later names stand in the order
of their earliest neighbours, those with the same one in the order in which relations first join them
with it. -/
theorem components_breadthFirst (nodes : List String) (relations : List Relation) :
    ((components nodes relations).Pairwise fun c d =>
      ∀ a ∈ c.head?, ∀ b ∈ d.head?, nodes.idxOf a < nodes.idxOf b) ∧
    ∀ names ∈ components nodes relations, ∃ start rest, names = start :: rest ∧
      (∀ x ∈ rest, nodes.idxOf start < nodes.idxOf x) ∧
      (∀ x ∈ names, (graph nodes relations).Reachable start x) ∧
      (names.Pairwise fun x y =>
        (graph nodes relations).dist start x ≤ (graph nodes relations).dist start y) ∧
      (∀ i x, 0 < i → names[i]? = some x →
        ∃ j < i, ∃ p, names[j]? = some p ∧ (graph nodes relations).Adj p x) ∧
      rest.Pairwise fun x y =>
        earliestNeighbour nodes relations names x < earliestNeighbour nodes relations names y ∨
        earliestNeighbour nodes relations names x = earliestNeighbour nodes relations names y ∧
          ∃ p, names[earliestNeighbour nodes relations names x]? = some p ∧
            firstMention relations p x < firstMention relations p y := by
  have heq := components_of_sameSearch (sameSearch_adjacent nodes relations)
  have hsorted := pairwise_idxOf_eraseDups nodes
  constructor
  · rw [heq]
    refine (componentsOf_heads (nodup_eraseDups nodes) hsorted).imp fun h a ha b hb => ?_
    exact h a ha b (List.mem_of_mem_head? hb)
  · intro c hc
    obtain ⟨start, rest, rfl, hearliest, horder⟩ :=
      componentsOf_breadthFirst (firstMention_pairwise nodes relations) hsorted c (heq ▸ hc)
    have hnodup : (start :: rest).Nodup :=
      (List.nodup_flatten.1 (nodup_flatten_components nodes relations)).1 _ hc
    have hmem (x : String) := mem_component_iff hc List.mem_cons_self x
    have hreach : ∀ x ∈ start :: rest, (graph nodes relations).Reachable start x := fun x hx =>
      reachable_of_linked ((hmem x).1 hx)
    have hclosed : ∀ a ∈ start :: rest, ∀ b, (graph nodes relations).Adj a b → b ∈ start :: rest :=
      fun a ha b hadj => (hmem b).2 (((hmem a).1 ha).tail hadj.2)
    refine ⟨start, rest, rfl, hearliest, hreach, ?_, ?_, ?_⟩
    · have hstart : start ∉ rest := (List.nodup_cons.1 hnodup).1
      exact horder.dist_pairwise (fun _ _ => mem_adjacent) hstart hclosed hreach
    · intro i x hi hx
      have hlt := horder.caller_lt hi hx
      obtain ⟨p, hp, hcalls⟩ :=
        exists_of_caller_lt (hlt.trans (List.getElem?_eq_some_iff.1 hx).1)
      exact ⟨_, hlt, p, hp, mem_adjacent.1 hcalls⟩
    · refine horder.ordered.imp fun h => ?_
      simpa only [Sooner, caller_adjacent, List.singleton_append] using h

/-- A ring of four names, one of which is given twice, and a name that stands alone. -/
def ring : List String := ["S", "E", "T", "L", "R", "S"]

def ringRelations : List Relation :=
  [⟨"E", "L", .association⟩, ⟨"S", "R", .inheritance⟩, ⟨"L", "S", .dependency⟩,
    ⟨"T", "T", .nested⟩, ⟨"R", "E", .association⟩, ⟨"R", "S", .composition⟩]

theorem components_ring : components ring ringRelations = [["S", "R", "L", "E"], ["T"]] :=
  components_of_within (by decide)

theorem components_breadthFirst_ring :
    components ring ringRelations = [["S", "R", "L", "E"], ["T"]] ∧
    ring.idxOf "S" < ring.idxOf "T" ∧ ring.idxOf "S" < ring.idxOf "E" ∧
    (graph ring ringRelations).Reachable "S" "E" ∧
    (graph ring ringRelations).dist "S" "L" ≤ (graph ring ringRelations).dist "S" "E" ∧
    (∃ j < 3, ∃ p, ["S", "R", "L", "E"][j]? = some p ∧ (graph ring ringRelations).Adj p "E") ∧
    firstMention ringRelations "S" "R" < firstMention ringRelations "S" "L" := by
  have hcomponents := components_ring
  obtain ⟨hheads, hall⟩ := components_breadthFirst ring ringRelations
  rw [hcomponents] at hheads hall
  obtain ⟨start, rest, heq, hearliest, hreach, hdist, hcalled, hordered⟩ :=
    hall ["S", "R", "L", "E"] List.mem_cons_self
  obtain ⟨rfl, rfl⟩ := List.cons.inj heq
  have hlevels := (List.pairwise_cons.1 (List.pairwise_cons.1 (List.pairwise_cons.1 hdist).2).2).1
  have hsooner := (List.pairwise_cons.1 hordered).1 "L" (by decide)
  have hcallers : earliestNeighbour ring ringRelations ["S", "R", "L", "E"] "R" = 0 ∧
      earliestNeighbour ring ringRelations ["S", "R", "L", "E"] "L" = 0 := by decide
  rw [hcallers.1, hcallers.2] at hsooner
  obtain ⟨-, p, hp, hmention⟩ := hsooner.resolve_left (Nat.lt_irrefl 0)
  obtain rfl := Option.some.inj hp
  exact ⟨hcomponents, (List.pairwise_cons.1 hheads).1 ["T"] (by decide) "S" rfl "T" rfl,
    hearliest "E" (by decide), hreach "E" (by decide), hlevels "E" (by decide),
    hcalled 3 "E" (by decide) rfl, hmention⟩

end ClassDiagram.Layout
