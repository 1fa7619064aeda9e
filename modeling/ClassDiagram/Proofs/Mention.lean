import ClassDiagram.Layout.Cluster
import ClassDiagram.Proofs.Components
import Mathlib.Data.Finset.Dedup
import Mathlib.Data.Sym.Sym2

/-! What a drawing takes from its relations. A search asks for the unseen neighbours of a name that
it has seen, each once, so of the relations only the pairs of different names count, and of each pair
only its first mention. As sets, the components depend on no order at all. -/

namespace ClassDiagram.Layout

/-- Whether a relation joins two different names of a drawing. -/
def isEdge (nodes : List String) (r : Relation) : Bool :=
  r.source ∈ nodes ∧ r.target ∈ nodes ∧ r.source ≠ r.target

/-- The ends of a relation, without its direction and its kind. -/
def edge (r : Relation) : Sym2 String := s(r.source, r.target)

/-- The pairs of different names of a drawing that are joined, in the order of first mention. -/
def mentions (nodes : List String) (relations : List Relation) : List (Sym2 String) :=
  ((relations.filter (isEdge nodes)).map edge).eraseDups

/-- The components of a drawing as sets of names. -/
def groups (nodes : List String) (relations : List Relation) : Finset (Finset String) :=
  ((components nodes relations).map List.toFinset).toFinset

/-! ### Searches that meet the same names -/

section Search

variable {next next' : String → List String} {nodes unseen queue names : List String}

/-- Two ways to find neighbours that no search among the names of a drawing can tell apart. -/
def SameSearch (nodes : List String) (next next' : String → List String) : Prop :=
  ∀ unseen ⊆ nodes, ∀ a ∈ nodes, a ∉ unseen → discover unseen (next a) = discover unseen (next' a)

theorem visit_congr (h : SameSearch nodes next next') (hunseen : unseen ⊆ nodes)
    (hqueue : ∀ a ∈ queue, a ∈ nodes ∧ a ∉ unseen) :
    visit next unseen queue = visit next' unseen queue := by
  fun_induction visit next unseen queue with
  | case1 unseen => rw [visit_nil]
  | case2 unseen name queue found reached ih =>
    obtain ⟨hname, hqueue⟩ := List.forall_mem_cons.1 hqueue
    have hfound : discover unseen (next' name) = found :=
      (h unseen hunseen name hname.1 hname.2).symm
    have hleft : remaining unseen found ⊆ unseen := fun x hx => (mem_remaining.1 hx).1
    have hnext : ∀ a ∈ queue ++ found, a ∈ nodes ∧ a ∉ remaining unseen found := by
      intro a ha
      rcases List.mem_append.1 ha with ha | ha
      · exact ⟨(hqueue a ha).1, fun hr => (hqueue a ha).2 (hleft hr)⟩
      · exact ⟨hunseen (mem_discover.1 ha).2, fun hr => (mem_remaining.1 hr).2 ha⟩
    rw [visit_cons next', hfound, ← ih (List.Subset.trans hleft hunseen) hnext]

theorem componentsOf_congr (h : SameSearch nodes next next') (hn : names.Nodup)
    (hnames : names ⊆ nodes) : componentsOf next names = componentsOf next' names := by
  fun_induction componentsOf next names with
  | case1 => rw [componentsOf_nil]
  | case2 start names reached ih =>
    obtain ⟨hstart, hn⟩ := List.nodup_cons.1 hn
    obtain ⟨hnode, hnames⟩ := List.cons_subset.1 hnames
    have hvisit : visit next' names [start] = reached :=
      (visit_congr h hnames (by simp [hnode, hstart])).symm
    have hleft : reached.2.Sublist names := visit_left_sublist next names [start]
    rw [componentsOf_cons, hvisit, ← ih (hn.sublist hleft) (List.Subset.trans hleft.subset hnames)]

end Search

/-! ### Mentions -/

variable {nodes nodes' unseen : List String} {relations relations' : List Relation} {a : String}

def otherEnd (a : String) : Sym2 String → Option String :=
  Sym2.lift ⟨fun x y => if x = a then some y else if y = a then some x else none, by
    intro x y
    by_cases hx : x = a <;> by_cases hy : y = a <;> simp [hx, hy]⟩

theorem otherEnd_edge (a : String) (r : Relation) : otherEnd a (edge r) =
    if r.source = a then some r.target else if r.target = a then some r.source else none := rfl

/-- The unseen names at the other end of a relation of a name that is seen. -/
theorem filter_farEnds (ha : a ∈ nodes) (hunseen : unseen ⊆ nodes) (hseen : a ∉ unseen)
    (r : Relation) : (farEnds a r).filter (· ∈ unseen) =
      (if isEdge nodes r then otherEnd a (edge r) else none).toList.filter (· ∈ unseen) := by
  have hedge : ∀ b ∈ unseen, b ∈ nodes ∧ b ≠ a := fun b hb =>
    ⟨hunseen hb, fun h => hseen (h ▸ hb)⟩
  rw [otherEnd_edge, farEnds]
  by_cases hs : r.source = a <;> by_cases ht : r.target = a
  · simp [isEdge, hs, ht, hseen]
  · by_cases hb : r.target ∈ unseen
    · simp [isEdge, hs, ht, hb, ha, hedge, Ne.symm ht]
    · rw [if_pos hs, if_neg ht, if_pos hs]
      split <;> simp [hb]
  · by_cases hb : r.source ∈ unseen
    · simp [isEdge, hs, ht, hb, ha, hedge]
    · rw [if_neg hs, if_pos ht, if_neg hs, if_pos ht]
      split <;> simp [hb]
  · simp [hs, ht]

theorem filter_neighbours (ha : a ∈ nodes) (hunseen : unseen ⊆ nodes) (hseen : a ∉ unseen) :
    (neighbours relations a).filter (· ∈ unseen) =
      (((relations.filter (isEdge nodes)).map edge).filterMap (otherEnd a)).filter (· ∈ unseen) := by
  induction relations with
  | nil => rfl
  | cons r relations ih =>
    rw [neighbours_cons, List.filter_append, filter_farEnds ha hunseen hseen, ih,
      ← List.filter_append]
    congr 1
    cases hr : isEdge nodes r with
    | false => simp [hr]
    | true => cases ho : otherEnd a (edge r) <;> simp [hr, ho]

theorem components_of_sameSearch {next : String → List String}
    (h : SameSearch nodes (neighbours relations) next) :
    components nodes relations = componentsOf next nodes.eraseDups :=
  componentsOf_congr h (nodup_eraseDups nodes) fun _ hx => List.mem_eraseDups.1 hx

/-- A search needs to know no more than the mentions. -/
theorem sameSearch_mentions (nodes : List String) (relations : List Relation) :
    SameSearch nodes (neighbours relations)
      fun a => (mentions nodes relations).filterMap (otherEnd a) := by
  intro unseen hunseen a ha hseen
  rw [discover, discover, filter_neighbours ha hunseen hseen, ← filter_eraseDups,
    ← filter_eraseDups, mentions, eraseDups_filterMap_eraseDups]

/-! ### Orders -/

theorem Linked.of_subset (hn : nodes ⊆ nodes') (hr : relations ⊆ relations') {b : String}
    (h : Linked nodes relations a b) : Linked nodes' relations' a b := by
  obtain ⟨ha, hb, r, hmem, hjoins⟩ := h
  exact ⟨hn ha, hn hb, r, hr hmem, hjoins⟩

theorem mem_groups {group : Finset String} : group ∈ groups nodes relations ↔
    ∃ a ∈ nodes, ∀ b, b ∈ group ↔ Relation.ReflTransGen (Linked nodes relations) a b := by
  simp only [groups, List.mem_toFinset, List.mem_map]
  constructor
  · rintro ⟨c, hc, rfl⟩
    have hne : c ≠ [] := fun h => componentsOf_nonempty _ _ (h ▸ hc)
    obtain ⟨a, ha⟩ := List.exists_mem_of_ne_nil c hne
    refine ⟨a, (mem_flatten_components nodes relations a).1 (List.mem_flatten_of_mem hc ha), ?_⟩
    intro b
    rw [List.mem_toFinset, mem_component_iff hc ha]
  · rintro ⟨a, ha, hgroup⟩
    obtain ⟨c, hc, hac⟩ := List.mem_flatten.1 ((mem_flatten_components nodes relations a).2 ha)
    refine ⟨c, hc, Finset.ext fun b => ?_⟩
    rw [List.mem_toFinset, mem_component_iff hc hac, hgroup]

theorem groups_subset_of_perm (hn : nodes'.Perm nodes) (hr : relations'.Perm relations) :
    groups nodes' relations' ⊆ groups nodes relations := by
  intro group hgroup
  obtain ⟨a, ha, hall⟩ := mem_groups.1 hgroup
  refine mem_groups.2 ⟨a, hn.subset ha, fun b => (hall b).trans ?_⟩
  have hthere := fun x y => Linked.of_subset (a := x) (b := y) hn.subset hr.subset
  have hback := fun x y => Linked.of_subset (a := x) (b := y) hn.symm.subset hr.symm.subset
  exact ⟨Relation.ReflTransGen.mono hthere a b, Relation.ReflTransGen.mono hback a b⟩

/-- Drawings of the same names with the same mentions have the same components in the same order,
and the same positions, in whichever number type these are computed. The sets of names that are
connected are the same even if the names or the relations are given in another order. -/
theorem components_mentions {α : Type} [Add α] [Mul α] [Coordinate α] (c : Config α)
    (nodes : List String) (relations relations' : List Relation) :
    (mentions nodes relations = mentions nodes relations' →
      components nodes relations = components nodes relations' ∧
      Cluster.positions c nodes relations = Cluster.positions c nodes relations') ∧
    (∀ nodes', nodes'.Perm nodes → relations'.Perm relations →
      groups nodes' relations' = groups nodes relations) := by
  constructor
  · intro h
    have hcomponents : components nodes relations = components nodes relations' := by
      rw [components_of_sameSearch (sameSearch_mentions nodes relations),
        components_of_sameSearch (sameSearch_mentions nodes relations'), h]
    exact ⟨hcomponents, by rw [Cluster.positions, Cluster.positions, hcomponents]⟩
  · intro nodes' hn hr
    exact (groups_subset_of_perm hn hr).antisymm (groups_subset_of_perm hn.symm hr.symm)

/-- A name that is given twice, and relations one of which leads out of the drawing. -/
def quartet : List String := ["B", "A", "D", "B", "C"]

def plain : List Relation :=
  [⟨"A", "B", .association⟩, ⟨"D", "X", .inheritance⟩, ⟨"C", "A", .composition⟩]

/-- The same mentions as `plain`, turned round, of other kinds and repeated, with a loop. -/
def echoed : List Relation :=
  [⟨"C", "C", .nested⟩, ⟨"B", "A", .dependency⟩, ⟨"A", "C", .association⟩, ⟨"A", "B", .association⟩]

theorem components_mentions_quartet :
    (mentions quartet plain = mentions quartet echoed ∧
      components quartet plain = components quartet echoed ∧
      Cluster.positions (Config.standard : Config Rat) quartet plain =
        Cluster.positions Config.standard quartet echoed) ∧
    quartet.reverse.Perm quartet ∧ plain.reverse.Perm plain ∧
      groups quartet.reverse plain.reverse = groups quartet plain := by
  have hmentions : mentions quartet plain = mentions quartet echoed := by decide
  have hnames : quartet.reverse.Perm quartet := by decide
  have hrelations : plain.reverse.Perm plain := by decide
  exact ⟨⟨hmentions, (components_mentions (Config.standard : Config Rat) quartet plain echoed).1
      hmentions⟩, hnames, hrelations,
    (components_mentions (Config.standard : Config Rat) quartet plain plain.reverse).2
      quartet.reverse hnames hrelations⟩

end ClassDiagram.Layout
