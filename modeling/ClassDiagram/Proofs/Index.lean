import ClassDiagram.Schema.Index

/-! What the index of a model holds, said without maps: a name stands for the last declaration that
carries it, and a class has the parent of the first inheritance relation that starts at it. -/

namespace ClassDiagram

namespace Model

/-- The class that was declared last under a name. -/
def lastClass? (m : Model) (name : String) : Option Class := m.classes.reverse.find? (·.name = name)

def lastEnum? (m : Model) (name : String) : Option Enumeration :=
  m.enums.reverse.find? (·.name = name)

def lastInterface? (m : Model) (name : String) : Option Interface :=
  m.interfaces.reverse.find? (·.name = name)

/-- The target of the first inheritance relation from a name. -/
def firstParent? (m : Model) (name : String) : Option String :=
  (m.relations.find? fun r => r.kind = .inheritance && r.source = name).map (·.target)

theorem lastClass?_isSome (m : Model) (name : String) :
    (m.lastClass? name).isSome ↔ name ∈ m.classes.map (·.name) := by
  simp [lastClass?]

theorem lastEnum?_isSome (m : Model) (name : String) :
    (m.lastEnum? name).isSome ↔ name ∈ m.enums.map (·.name) := by
  simp [lastEnum?]

theorem name_of_lastClass? {m : Model} {name : String} {c : Class}
    (h : m.lastClass? name = some c) : c.name = name := by
  simpa using List.find?_some h

theorem mem_of_lastClass? {m : Model} {name : String} {c : Class}
    (h : m.lastClass? name = some c) : c ∈ m.classes := by
  simpa using List.mem_of_find?_eq_some h

end Model

namespace Index

/-- A table of declarations by name keeps the last one of each name. -/
theorem find?_table {α : Type} (name : α → String) (l : List α) (n : String) :
    (NameMap.ofList (l.map fun a => (name a, a))).find? n = l.reverse.find? (name · = n) := by
  rw [NameMap.find?_ofList, ← List.map_reverse, List.find?_map, Option.map_map]
  simp [Function.comp_def]

theorem classes_find? (m : Model) (n : String) :
    (ofModel m).classes.find? n = m.lastClass? n := find?_table _ _ _

theorem enums_find? (m : Model) (n : String) :
    (ofModel m).enums.find? n = m.lastEnum? n := find?_table _ _ _

theorem interfaces_find? (m : Model) (n : String) :
    (ofModel m).interfaces.find? n = m.lastInterface? n := find?_table _ _ _

theorem addParent_find? (parents : NameMap String) (r : Relation) (n : String) :
    (addParent parents r).find? n =
      (parents.find? n).or (if r.source = n then some r.target else none) := by
  unfold addParent
  split
  · next p hp => by_cases h : r.source = n <;> simp_all
  · next hp =>
    rw [NameMap.find?_insert]
    by_cases h : r.source = n
    · subst h; simp [hp]
    · simp [h, Ne.symm h]

/-- A parent that is recorded stays; otherwise the first relation of the child gives it. -/
theorem foldl_addParent_find? (rs : List Relation) (parents : NameMap String) (n : String) :
    (rs.foldl addParent parents).find? n =
      (parents.find? n).or ((rs.find? (·.source = n)).map (·.target)) := by
  induction rs generalizing parents with
  | nil => simp
  | cons r rs ih =>
    rw [List.foldl_cons, ih, addParent_find?, Option.or_assoc]
    by_cases h : r.source = n <;> simp [h]

theorem parents_find? (m : Model) (n : String) :
    (ofModel m).parents.find? n = m.firstParent? n := by
  have h : (parentsOf m.relations).find? n = m.firstParent? n := by
    unfold parentsOf Model.firstParent?
    rw [foldl_addParent_find?, NameMap.find?_empty, Option.none_or, List.find?_filter]
    simp
  exact h

theorem parentClass?_ofModel (m : Model) (n : String) :
    (ofModel m).parentClass? n = (m.firstParent? n).bind m.lastClass? := by
  unfold parentClass?
  rw [parents_find?]
  congr 1
  funext p
  exact classes_find? m p

end Index

end ClassDiagram
