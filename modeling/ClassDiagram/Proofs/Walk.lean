import ClassDiagram.Proofs.Index
import ClassDiagram.Schema.Conversion
import Mathlib.Data.List.Dedup
import Mathlib.Data.List.Nodup
import Mathlib.Order.Bounds.Defs

/-! Flattening goes up the walk from a class through the parents that are first named: it collects
the levels of the walk from the far end, or stops where a name comes back. -/

namespace ClassDiagram

namespace Model

/-- The classes on the way up from `c`, which is at place zero. -/
def walk (m : Model) (c : Class) : ℕ → Option Class
  | 0 => some c
  | k + 1 => (m.walk c k).bind fun d => (m.firstParent? d.name).bind m.lastClass?

/-- The names on the way up from a name, as long as they belong to declared classes. -/
def nameWalk (m : Model) (name : String) : ℕ → Option String
  | 0 => some name
  | k + 1 => (m.nameWalk name k).bind fun n =>
      (m.firstParent? n).filter fun p => p ∈ m.classes.map (·.name)

/-- The first `n` classes of the walk, or all of it where it is shorter. -/
def walkTo (m : Model) (c : Class) (n : ℕ) : List Class := (List.range n).filterMap (m.walk c)

/-- What one class of a walk contributes: the attributes of its interfaces, in the order of the
relations that name them, and its own. -/
def levelAttributes (m : Model) (c : Class) : List Attribute :=
  ((m.relations.filter fun r => r.kind = .implementation && r.target = c.name).flatMap fun r =>
    ((m.lastInterface? r.source).map (·.attributes)).getD []) ++ c.attributes

/-- A name is that of a declared class just where the last class of the name is found. -/
theorem filter_declared (m : Model) (o : Option String) :
    (o.filter fun p => p ∈ m.classes.map (·.name)) = (o.bind m.lastClass?).map (·.name) := by
  cases o with
  | none => rfl
  | some p =>
    rw [Option.bind_some]
    cases h : m.lastClass? p with
    | none =>
      have hp : p ∉ m.classes.map (·.name) := by rw [← lastClass?_isSome, h]; simp
      simpa using hp
    | some q =>
      have hp : p ∈ m.classes.map (·.name) := by rw [← lastClass?_isSome, h]; rfl
      simpa [name_of_lastClass? h] using hp

theorem nameWalk_eq (m : Model) (c : Class) (k : ℕ) :
    m.nameWalk c.name k = (m.walk c k).map (·.name) := by
  induction k with
  | zero => rfl
  | succ k ih =>
    simp only [nameWalk, walk, ih, filter_declared]
    cases m.walk c k <;> rfl

theorem walk_succ (m : Model) (c : Class) (k : ℕ) :
    m.walk c (k + 1) = ((m.firstParent? c.name).bind m.lastClass?).bind (m.walk · k) := by
  induction k with
  | zero => simp [walk]
  | succ k ih =>
    rw [walk, ih]
    cases (m.firstParent? c.name).bind m.lastClass? <;> simp [walk]

theorem walk_one (m : Model) (c : Class) :
    m.walk c 1 = (m.firstParent? c.name).bind m.lastClass? := rfl

theorem walk_of_parent {m : Model} {c p : Class} (h : m.walk c 1 = some p) (k : ℕ) :
    m.walk c (k + 1) = m.walk p k := by
  rw [walk_succ, ← walk_one, h, Option.bind_some]

theorem walk_none_of_le {m : Model} {c : Class} {n k : ℕ} (h : m.walk c n = none) (hk : n ≤ k) :
    m.walk c k = none := by
  obtain ⟨d, rfl⟩ := Nat.exists_eq_add_of_le hk
  induction d with
  | zero => exact h
  | succ d ih => rw [← Nat.add_assoc, walk, ih (by omega), Option.bind_none]

theorem walkTo_one (m : Model) (c : Class) : m.walkTo c 1 = [c] := by
  simp [walkTo, walk, List.range_succ]

theorem walkTo_succ_of_parent {m : Model} {c p : Class} (h : m.walk c 1 = some p) (n : ℕ) :
    m.walkTo c (n + 1) = c :: m.walkTo p n := by
  have hw : ∀ k ∈ List.range n, (m.walk c ∘ Nat.succ) k = m.walk p k := fun k _ =>
    walk_of_parent h k
  have h0 : m.walk c 0 = some c := rfl
  unfold walkTo
  rw [List.range_succ_eq_map, List.filterMap_cons_some h0, List.filterMap_map,
    List.filterMap_congr hw]

/-- Where the first `n` places of a walk are taken, they are its first `n` classes. -/
theorem walkTo_map_some {m : Model} {c : Class} {n : ℕ} (h : ∀ i < n, (m.walk c i).isSome) :
    (m.walkTo c n).map some = (List.range n).map (m.walk c) := by
  unfold walkTo
  rw [List.map_filterMap]
  have hs : ∀ i ∈ List.range n, (m.walk c i).map some = some (m.walk c i) := by
    intro i hi
    obtain ⟨d, hd⟩ := Option.isSome_iff_exists.1 (h i (List.mem_range.1 hi))
    rw [hd]
    rfl
  rw [List.filterMap_congr hs]
  simp

theorem names_walkTo {m : Model} {c : Class} {n : ℕ} (h : ∀ i < n, (m.walk c i).isSome) :
    ((m.walkTo c n).map (·.name)).map some = (List.range n).map (m.nameWalk c.name) := by
  have hw := congrArg (List.map (Option.map fun d : Class => d.name)) (walkTo_map_some h)
  simpa only [List.map_map, Function.comp_def, Option.map_some, ← nameWalk_eq] using hw

theorem walk_mem {m : Model} {c d : Class} (hc : c ∈ m.classes) {k : ℕ} (h : m.walk c k = some d) :
    d ∈ m.classes := by
  cases k with
  | zero => exact Option.some.inj h ▸ hc
  | succ k =>
    obtain ⟨_, -, h⟩ := Option.bind_eq_some_iff.1 h
    obtain ⟨_, -, h⟩ := Option.bind_eq_some_iff.1 h
    exact mem_of_lastClass? h

end Model

end ClassDiagram
