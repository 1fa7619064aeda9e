import ClassDiagram.Model.Basic
import ClassDiagram.NameMap
/-!
What is looked up by name while a model becomes schemas. Of the declarations of one name the last
counts, of the parents of a class the first.
-/

namespace ClassDiagram

structure Index where
  classes : NameMap Class
  enums : NameMap Enumeration
  interfaces : NameMap Interface
  parents : NameMap String
  deriving DecidableEq, Repr

namespace Index

/-- Records the parent that a relation names, unless its child has one. -/
def addParent (parents : NameMap String) (r : Relation) : NameMap String :=
  match parents.find? r.source with
  | some _ => parents
  | none => parents.insert r.source r.target

def parentsOf (relations : List Relation) : NameMap String :=
  (relations.filter (·.kind = .inheritance)).foldl addParent NameMap.empty

def ofModel (m : Model) : Index :=
  { classes := NameMap.ofList (m.classes.map fun c => (c.name, c))
    enums := NameMap.ofList (m.enums.map fun e => (e.name, e))
    interfaces := NameMap.ofList (m.interfaces.map fun i => (i.name, i))
    parents := parentsOf m.relations }

def parentClass? (ix : Index) (name : String) : Option Class :=
  (ix.parents.find? name).bind ix.classes.find?

def offChain (ix : Index) (chain : List String) : List Class :=
  ix.classes.values.filter (·.name ∉ chain)

/--
How many classes a walk can still come to that goes on with `c` after a chain. A class that the
index does not hold counts on its own.
-/
def unseen (ix : Index) (chain : List String) (c : Class) : Nat :=
  (ix.offChain chain).length + if c.name ∈ ix.classes.values.map (·.name) then 0 else 1

theorem offChain_append (ix : Index) (chain : List String) (name : String) :
    ix.offChain (chain ++ [name]) = (ix.offChain chain).filter (·.name ≠ name) := by
  simp only [offChain, List.filter_filter]
  exact List.filter_congr fun d _ => by simp [and_comm]

theorem unseen_lt {ix : Index} {chain : List String} {c p : Class} (hc : c.name ∉ chain)
    (hp : ix.parentClass? c.name = some p) : ix.unseen (chain ++ [c.name]) p < ix.unseen chain c := by
  obtain ⟨parent, -, hp⟩ := Option.bind_eq_some_iff.1 hp
  have hmem : p.name ∈ ix.classes.values.map (·.name) :=
    List.mem_map_of_mem (NameMap.mem_values_of_find? hp)
  unfold unseen
  rw [if_pos hmem, offChain_append]
  split
  · next h =>
    obtain ⟨d, hd, hdc⟩ := List.mem_map.1 h
    have hd' : d ∈ ix.offChain chain := List.mem_filter.2 ⟨hd, by simpa [hdc] using hc⟩
    have hlt : ((ix.offChain chain).filter (·.name ≠ c.name)).length < (ix.offChain chain).length :=
      List.length_filter_lt_length_iff_exists.2 ⟨d, hd', by simp [hdc]⟩
    omega
  · have hle : ((ix.offChain chain).filter (·.name ≠ c.name)).length ≤ (ix.offChain chain).length :=
      List.length_filter_le _ _
    omega

end Index

def Model.parent? (m : Model) (name : String) : Option String :=
  (Index.parentsOf m.relations).find? name

end ClassDiagram
