import ClassDiagram.Layout.Components
import ClassDiagram.Proofs.Repeats
import Mathlib.Data.List.Nodup
import Mathlib.Data.Nat.Notation
import Mathlib.Logic.Relation

/-! The components of a drawing are its names, parted by connectivity. A search takes a name with
all that it leads to among the names not seen before. None of those left over is a neighbour of one
that was reached, so what a search leaves is linked to nothing that it took. -/

namespace ClassDiagram.Layout

/-- The names at the other end of a relation of a name. A relation with itself has two of them. -/
def farEnds (a : String) (r : Relation) : List String :=
  (if r.source = a then [r.target] else []) ++ (if r.target = a then [r.source] else [])

theorem neighbours_cons (r : Relation) (relations : List Relation) (a : String) :
    neighbours (r :: relations) a = farEnds a r ++ neighbours relations a := rfl

theorem mem_farEnds {a b : String} {r : Relation} : b ∈ farEnds a r ↔ r.joins a b := by
  by_cases hs : r.source = a <;> by_cases ht : r.target = a <;>
    simp [farEnds, Relation.joins, hs, ht, eq_comm]

theorem mem_neighbours {relations : List Relation} {a b : String} :
    b ∈ neighbours relations a ↔ ∃ r ∈ relations, r.joins a b := by
  rw [show neighbours relations a = relations.flatMap (farEnds a) from rfl]
  simp only [List.mem_flatMap, mem_farEnds]

/-- Two names of a drawing that are the ends of a relation, whichever way it points. -/
def Linked (nodes : List String) (relations : List Relation) (a b : String) : Prop :=
  a ∈ nodes ∧ b ∈ nodes ∧ ∃ r ∈ relations, r.joins a b

section Search

variable {next : String → List String} {unseen met queue : List String}

/-! ### One step of a search -/

theorem mem_discover {x : String} : x ∈ discover unseen met ↔ x ∈ met ∧ x ∈ unseen := by
  simp [discover, List.mem_eraseDups]

theorem mem_remaining {found : List String} {x : String} :
    x ∈ remaining unseen found ↔ x ∈ unseen ∧ x ∉ found := by
  simp [remaining]

theorem nodup_discover (unseen met : List String) : (discover unseen met).Nodup :=
  nodup_eraseDups _

/-- The names just found and those still unseen are the unseen names of before. -/
theorem discover_append_remaining (h : unseen.Nodup) (met : List String) :
    (discover unseen met ++ remaining unseen (discover unseen met)).Perm unseen := by
  refine (List.perm_ext_iff_of_nodup ?_ h).2 fun x => ?_
  · refine (nodup_discover unseen met).append (h.filter _) fun x hx hr => ?_
    exact (mem_remaining.1 hr).2 hx
  · rw [List.mem_append, mem_remaining]
    by_cases hx : x ∈ discover unseen met
    · simp [hx, (mem_discover.1 hx).2]
    · simp [hx]

/-! ### A whole search -/

theorem visit_nil (next : String → List String) (unseen : List String) :
    visit next unseen [] = ([], unseen) := by
  rw [visit]

theorem visit_cons (next : String → List String) (unseen : List String) (name : String)
    (queue : List String) : visit next unseen (name :: queue) =
      (name :: (visit next (remaining unseen (discover unseen (next name)))
          (queue ++ discover unseen (next name))).1,
        (visit next (remaining unseen (discover unseen (next name)))
          (queue ++ discover unseen (next name))).2) := by
  rw [visit]

theorem visit_left_sublist (next : String → List String) (unseen queue : List String) :
    (visit next unseen queue).2.Sublist unseen := by
  fun_induction visit next unseen queue with
  | case1 unseen => exact .refl unseen
  | case2 unseen name queue found reached ih => exact ih.trans List.filter_sublist

/-- A search loses no name and meets none twice. -/
theorem visit_perm (next : String → List String) (h : unseen.Nodup) (queue : List String) :
    ((visit next unseen queue).1 ++ (visit next unseen queue).2).Perm (queue ++ unseen) := by
  fun_induction visit next unseen queue with
  | case1 unseen => exact .refl unseen
  | case2 unseen name queue found reached ih =>
    have hstep : (queue ++ found ++ remaining unseen found).Perm (queue ++ unseen) := by
      rw [List.append_assoc]
      exact (discover_append_remaining h (next name)).append_left queue
    exact ((ih (h.filter _)).trans hstep).cons name

/-- No name that a search leaves is a neighbour of one that it reached. -/
theorem visit_closed (next : String → List String) (unseen queue : List String) :
    ∀ x ∈ (visit next unseen queue).1, ∀ y ∈ next x, y ∉ (visit next unseen queue).2 := by
  fun_induction visit next unseen queue with
  | case1 unseen => simp
  | case2 unseen name queue found reached ih =>
    intro x hx y hy hleft
    rcases List.mem_cons.1 hx with rfl | hx
    · have hr := mem_remaining.1 ((visit_left_sublist next _ _).subset hleft)
      exact hr.2 (mem_discover.2 ⟨hy, hr.1⟩)
    · exact ih x hx y hy hleft

theorem mem_visit (next : String → List String) (h : unseen.Nodup) (queue : List String)
    (x : String) : (x ∈ (visit next unseen queue).1 ∨ x ∈ (visit next unseen queue).2) ↔
      x ∈ queue ∨ x ∈ unseen := by
  simp only [← List.mem_append, (visit_perm next h queue).mem_iff]

variable {nodes names : List String} {links : String → String → Prop}

/-- A search reaches only what a name of its queue leads to. -/
theorem visit_sound (hlinks : ∀ a ∈ nodes, ∀ b ∈ nodes, b ∈ next a → links a b)
    (hunseen : unseen ⊆ nodes) (hqueue : queue ⊆ nodes) :
    ∀ x ∈ (visit next unseen queue).1, ∃ q ∈ queue, Relation.ReflTransGen links q x := by
  fun_induction visit next unseen queue with
  | case1 unseen => simp
  | case2 unseen name queue found reached ih =>
    obtain ⟨hname, hqueue⟩ := List.cons_subset.1 hqueue
    have hfound : found ⊆ nodes := fun b hb => hunseen (mem_discover.1 hb).2
    intro x hx
    rcases List.mem_cons.1 hx with rfl | hx
    · exact ⟨x, List.mem_cons_self, .refl⟩
    obtain ⟨q, hq, hpath⟩ := ih (fun b hb => hunseen (mem_remaining.1 hb).1)
      (List.append_subset.2 ⟨hqueue, hfound⟩) x hx
    rcases List.mem_append.1 hq with hq | hq
    · exact ⟨q, List.mem_cons_of_mem _ hq, hpath⟩
    · have hlink : links name q := hlinks name hname q (hfound hq) (mem_discover.1 hq).1
      exact ⟨name, List.mem_cons_self, .head hlink hpath⟩

/-! ### All searches -/

theorem componentsOf_nil (next : String → List String) : componentsOf next [] = [] := by
  rw [componentsOf]

theorem componentsOf_cons (next : String → List String) (start : String) (names : List String) :
    componentsOf next (start :: names) =
      (visit next names [start]).1 :: componentsOf next (visit next names [start]).2 := by
  rw [componentsOf]

theorem componentsOf_nonempty (next : String → List String) (names : List String) :
    [] ∉ componentsOf next names := by
  fun_induction componentsOf next names with
  | case1 => simp
  | case2 start names reached ih =>
    have hstart : reached.1 ≠ [] := by simp [reached, visit_cons]
    simpa [hstart.symm] using ih

theorem flatten_componentsOf (next : String → List String) (h : names.Nodup) :
    (componentsOf next names).flatten.Perm names := by
  fun_induction componentsOf next names with
  | case1 => exact .refl _
  | case2 start names reached ih =>
    have hn := (List.nodup_cons.1 h).2
    have hleft := ih (hn.sublist (visit_left_sublist next names [start]))
    exact (hleft.append_left reached.1).trans (visit_perm next hn [start])

/-- Some name of a component leads to all of them. -/
theorem componentsOf_sound (hlinks : ∀ a ∈ nodes, ∀ b ∈ nodes, b ∈ next a → links a b)
    (hnames : names ⊆ nodes) : ∀ c ∈ componentsOf next names,
      ∃ start, ∀ x ∈ c, Relation.ReflTransGen links start x := by
  fun_induction componentsOf next names with
  | case1 => simp
  | case2 start names reached ih =>
    obtain ⟨hstart, hnames⟩ := List.cons_subset.1 hnames
    intro c hc
    rcases List.mem_cons.1 hc with rfl | hc
    · refine ⟨start, fun x hx => ?_⟩
      obtain ⟨q, hq, hpath⟩ := visit_sound hlinks hnames (List.cons_subset.2 ⟨hstart, by simp⟩) x hx
      rwa [List.mem_singleton.1 hq] at hpath
    · exact ih (List.Subset.trans (visit_left_sublist next names [start]).subset hnames) c hc

/-- A component of names that are linked to no others holds all that its names are linked to. -/
theorem componentsOf_closed (hlinks : ∀ a b, links a b → b ∈ next a)
    (hsymm : ∀ a b, links a b → links b a) (hn : names.Nodup)
    (hnames : ∀ a ∈ names, ∀ b, links a b → b ∈ names) :
    ∀ c ∈ componentsOf next names, ∀ x ∈ c, ∀ y, links x y → y ∈ c := by
  fun_induction componentsOf next names with
  | case1 => simp
  | case2 start names reached ih =>
    have hn := (List.nodup_cons.1 hn).2
    have hmem (x : String) : (x ∈ reached.1 ∨ x ∈ reached.2) ↔ x ∈ start :: names := by
      simpa using mem_visit next hn [start] x
    have hclosed : ∀ x ∈ reached.1, ∀ y, links x y → y ∉ reached.2 := fun x hx y hxy =>
      visit_closed next names [start] x hx y (hlinks x y hxy)
    have hparted : ∀ x ∈ start :: names, ∀ y, links x y → y ∈ reached.1 ∨ y ∈ reached.2 :=
      fun x hx y hxy => (hmem y).2 (hnames x hx y hxy)
    intro c hc
    rcases List.mem_cons.1 hc with rfl | hc
    · intro x hx y hxy
      exact (hparted x ((hmem x).1 (.inl hx)) y hxy).resolve_right (hclosed x hx y hxy)
    · refine ih (hn.sublist (visit_left_sublist next names [start])) ?_ c hc
      intro a ha b hab
      -- Were `b` reached, then so were `a`, which is linked to it.
      exact (hparted a ((hmem a).1 (.inr ha)) b hab).resolve_left fun hb =>
        hclosed b hb a (hsymm a b hab) ha

/-! ### Rounds

The searches once more, with a bound on the rounds of each, in which one name is taken from the
queue, and on the number of searches; nothing where these do not suffice. -/

def visitWithin (next : String → List String) :
    ℕ → (unseen queue : List String) → Option (List String × List String)
  | _, unseen, [] => some ([], unseen)
  | 0, _, _ :: _ => none
  | rounds + 1, unseen, name :: queue =>
    let found := discover unseen (next name)
    (visitWithin next rounds (remaining unseen found) (queue ++ found)).map fun reached =>
      (name :: reached.1, reached.2)

def componentsWithin (next : String → List String) (rounds : ℕ) :
    ℕ → List String → Option (List (List String))
  | _, [] => some []
  | 0, _ :: _ => none
  | searches + 1, start :: names =>
    (visitWithin next rounds names [start]).bind fun reached =>
      (componentsWithin next rounds searches reached.2).map (reached.1 :: ·)

/-- A search takes one round for each name that it reaches. -/
theorem visitWithin_eq {rounds : ℕ} (h : (visit next unseen queue).1.length ≤ rounds) :
    visitWithin next rounds unseen queue = some (visit next unseen queue) := by
  induction rounds generalizing unseen queue with
  | zero =>
    cases queue with
    | nil => rw [visitWithin, visit_nil]
    | cons name queue => simp [visit_cons] at h
  | succ rounds ih =>
    cases queue with
    | nil => rw [visitWithin, visit_nil]
    | cons name queue =>
      rw [visit_cons] at h ⊢
      rw [visitWithin, ih (Nat.le_of_succ_le_succ h), Option.map_some]

theorem componentsWithin_eq {rounds searches : ℕ} (hn : names.Nodup) (hr : names.length ≤ rounds)
    (hs : names.length ≤ searches) :
    componentsWithin next rounds searches names = some (componentsOf next names) := by
  induction searches generalizing names with
  | zero =>
    obtain rfl := List.eq_nil_of_length_eq_zero (Nat.le_zero.1 hs)
    rw [componentsWithin, componentsOf_nil]
  | succ searches ih =>
    cases names with
    | nil => rw [componentsWithin, componentsOf_nil]
    | cons start names =>
      have hn := (List.nodup_cons.1 hn).2
      have hlength := (visit_perm next hn [start]).length_eq
      have hleft := length_visit_le next names [start]
      simp only [List.length_append, List.length_cons, List.length_nil] at hlength hr hs
      have hvisit : visitWithin next rounds names [start] = some (visit next names [start]) :=
        visitWithin_eq (by omega)
      have hrest := ih (hn.sublist (visit_left_sublist next names [start])) (by omega) (by omega)
      rw [componentsWithin, hvisit, Option.bind_some, hrest, componentsOf_cons, Option.map_some]

end Search

/-! ### Drawings -/

variable {nodes : List String} {relations : List Relation} {a b : String}

theorem Linked.symm (h : Linked nodes relations a b) : Linked nodes relations b a := by
  obtain ⟨ha, hb, r, hr, hjoins⟩ := h
  refine ⟨hb, ha, r, hr, ?_⟩
  simpa [Relation.joins, Bool.or_comm] using hjoins

/-- The bounded searches tell what the components of a given drawing are. -/
theorem components_of_within {found : List (List String)}
    (h : componentsWithin (neighbours relations) nodes.eraseDups.length nodes.eraseDups.length
      nodes.eraseDups = some found) : components nodes relations = found := by
  rw [componentsWithin_eq (nodup_eraseDups nodes) (Nat.le_refl _) (Nat.le_refl _)] at h
  exact Option.some.inj h

theorem flatten_components (nodes : List String) (relations : List Relation) :
    (components nodes relations).flatten.Perm nodes.eraseDups :=
  flatten_componentsOf _ (nodup_eraseDups nodes)

theorem mem_flatten_components (nodes : List String) (relations : List Relation) (x : String) :
    x ∈ (components nodes relations).flatten ↔ x ∈ nodes := by
  rw [(flatten_components nodes relations).mem_iff, List.mem_eraseDups]

theorem nodup_flatten_components (nodes : List String) (relations : List Relation) :
    (components nodes relations).flatten.Nodup :=
  (flatten_components nodes relations).nodup_iff.2 (nodup_eraseDups nodes)

/-- From a name of a component, paths lead to the names of the component and to no others. -/
theorem mem_component_iff {c : List String} (hc : c ∈ components nodes relations) (ha : a ∈ c)
    (b : String) : b ∈ c ↔ Relation.ReflTransGen (Linked nodes relations) a b := by
  have hsymm : Std.Symm (Linked nodes relations) := ⟨fun _ _ => Linked.symm⟩
  constructor
  · intro hb
    have hlinks : ∀ x ∈ nodes, ∀ y ∈ nodes, y ∈ neighbours relations x →
        Linked nodes relations x y := fun _ hx _ hy h => ⟨hx, hy, mem_neighbours.1 h⟩
    obtain ⟨start, hstart⟩ := componentsOf_sound hlinks (fun _ hx => List.mem_eraseDups.1 hx) c hc
    exact (Relation.ReflTransGen.stdSymm.symm _ _ (hstart a ha)).trans (hstart b hb)
  · intro hpath
    have hlinks : ∀ x y, Linked nodes relations x y → y ∈ neighbours relations x := fun _ _ h =>
      mem_neighbours.2 h.2.2
    have hclosed := componentsOf_closed hlinks (fun _ _ => Linked.symm) (nodup_eraseDups nodes)
      (fun _ _ _ h => List.mem_eraseDups.2 h.2.1) c hc
    induction hpath with
    | refl => exact ha
    | tail _ hlink ih => exact hclosed _ ih _ hlink

/-- The components are lists of names in which every name of the drawing stands once. Two names are
in one component if relations between names of the drawing join them, directly or over others.
The searches end: none takes more rounds than there are names, and there are no more of them. -/
theorem components_partition (nodes : List String) (relations : List Relation) :
    [] ∉ components nodes relations ∧
    (components nodes relations).flatten.Nodup ∧
    (∀ x, x ∈ (components nodes relations).flatten ↔ x ∈ nodes) ∧
    (∀ x y, (∃ c ∈ components nodes relations, x ∈ c ∧ y ∈ c) ↔
      x ∈ nodes ∧ y ∈ nodes ∧ Relation.ReflTransGen (Linked nodes relations) x y) ∧
    componentsWithin (neighbours relations) nodes.eraseDups.length nodes.eraseDups.length
      nodes.eraseDups = some (components nodes relations) := by
  have hmem := mem_flatten_components nodes relations
  refine ⟨componentsOf_nonempty _ _, nodup_flatten_components nodes relations, hmem, ?_,
    componentsWithin_eq (nodup_eraseDups nodes) (Nat.le_refl _) (Nat.le_refl _)⟩
  intro x y
  constructor
  · rintro ⟨c, hc, hx, hy⟩
    exact ⟨(hmem x).1 (List.mem_flatten_of_mem hc hx), (hmem y).1 (List.mem_flatten_of_mem hc hy),
      (mem_component_iff hc hx y).1 hy⟩
  · rintro ⟨hx, -, hpath⟩
    obtain ⟨c, hc, hxc⟩ := List.mem_flatten.1 ((hmem x).2 hx)
    exact ⟨c, hc, hxc, (mem_component_iff hc hxc y).2 hpath⟩

end ClassDiagram.Layout
