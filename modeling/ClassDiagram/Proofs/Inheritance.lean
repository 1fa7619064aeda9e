import ClassDiagram.Proofs.Conversion
import ClassDiagram.Proofs.Duplicate

/-! The fields of a class against those of its parent. A class takes its parent from the last
declaration of the parent's name, while the parent's own schema is that of the first: the schema of
a child begins with the schema of its parent unless the two declarations differ. -/

namespace ClassDiagram

theorem map_eq_ok_iff {α β ε : Type} {x : Except ε α} {g : α → β} {b : β} :
    x.map g = .ok b ↔ ∃ a, x = .ok a ∧ g a = b := by
  cases x <;> simp [Except.map]

theorem Index.parentClass?_of_parent? {m : Model} {child parent : String}
    (hp : m.parent? child = some parent) :
    (Index.ofModel m).parentClass? child = m.lastClass? parent := by
  have hfirst : m.firstParent? child = some parent := (parents_find? m child).symm.trans hp
  rw [parentClass?_ofModel, hfirst, Option.bind_some]

namespace Converter

variable {k : Converter} {c p : Class} {fields : List AttributeSchema}

theorem flatten_of_parentClass {chain : List String} (hc : c.name ∉ chain)
    (hp : k.index.parentClass? c.name = some p) :
    k.flatten chain c = (k.flatten (chain ++ [c.name]) p).map (· ++ k.levelFields c) := by
  rw [flatten_of_not_mem k hc, hp]

theorem not_mem_of_flatten {chain : List String} (hf : k.flatten chain c = .ok fields) :
    c.name ∉ chain := by
  intro hc
  rw [flatten_of_mem k hc] at hf
  cases hf

/-- A flattening that comes through does so with the same fields behind a part of its chain. -/
theorem flatten_of_subset {chain chain' : List String} (hsub : chain' ⊆ chain)
    (hf : k.flatten chain c = .ok fields) : k.flatten chain' c = .ok fields := by
  induction hu : k.index.unseen chain c using Nat.strongRecOn
    generalizing chain chain' c fields with
  | ind u ih =>
    have hc := not_mem_of_flatten hf
    have hc' : c.name ∉ chain' := fun hmem => hc (hsub hmem)
    cases hp : k.index.parentClass? c.name with
    | none =>
      rw [flatten_of_not_mem k hc, hp] at hf
      rwa [flatten_of_not_mem k hc', hp]
    | some p =>
      rw [flatten_of_parentClass hc hp, map_eq_ok_iff] at hf
      obtain ⟨inherited, hinherited, rfl⟩ := hf
      have hsub' : chain' ++ [c.name] ⊆ chain ++ [c.name] := fun n hn =>
        (List.mem_append.1 hn).elim (fun hn => List.mem_append_left _ (hsub hn))
          (List.mem_append_right _)
      have hrest := ih _ (hu ▸ Index.unseen_lt hc hp) hsub' hinherited rfl
      rw [flatten_of_parentClass hc' hp, hrest]
      rfl

/-- Below a parent, the fields of the parent come first. -/
theorem flatten_of_parent (hp : k.index.parentClass? c.name = some p)
    (hf : k.flatten [] c = .ok fields) :
    ∃ inherited, k.flatten [] p = .ok inherited ∧ inherited ++ k.levelFields c = fields := by
  rw [flatten_of_parentClass List.not_mem_nil hp, map_eq_ok_iff] at hf
  obtain ⟨inherited, hinherited, hfields⟩ := hf
  exact ⟨inherited, flatten_of_subset (List.nil_subset _) hinherited, hfields⟩

end Converter

namespace Heuristics

open Converter

variable {h : Heuristics} {m : Model} {child parent : String} {s : ClassSchema}

theorem convertOne_eq_ok_iff : h.convertOne m child = .ok s ↔
    ∃ c, m.class? child = some c ∧ (ofModel h m).convertClass c = .ok s := by
  unfold convertOne
  cases m.class? child <;> simp

/-- Where a child with a declared parent is converted, so is the parent. The schema of the child
begins with the fields of the last declaration of the parent. The schema of the parent is that of
its first declaration; so the child's begins with it just where the first declaration's own fields
begin those of the last one and of the child, and always where the parent is declared only once. -/
theorem convertOne_extends (hparent : m.parent? child = some parent)
    (hdeclared : parent ∈ m.classes.map (·.name)) (hs : h.convertOne m child = .ok s) :
    ∃ c first last inherited sp, m.class? child = some c ∧ m.class? parent = some first ∧
      m.lastClass? parent = some last ∧
      (ofModel h m).convertClass last = .ok inherited ∧
      s.attributes = inherited.attributes ++ (ofModel h m).levelFields c ∧
      h.convertOne m parent = .ok sp ∧
      (sp.attributes <+: s.attributes ↔
        (ofModel h m).ownFields first <+: (ofModel h m).ownFields last ++
          (ofModel h m).levelFields c) ∧
      (parent ∉ m.duplicateClassNames → sp.attributes <+: s.attributes) := by
  obtain ⟨c, hc, hconv⟩ := convertOne_eq_ok_iff.1 hs
  obtain ⟨attributes, hflat, rfl⟩ := convertClass_eq_ok_iff.1 hconv
  obtain ⟨last, hlast⟩ := Option.isSome_iff_exists.1 ((m.lastClass?_isSome parent).2 hdeclared)
  obtain ⟨b, hb, hbname⟩ := List.mem_map.1 hdeclared
  obtain ⟨first, hfirst, hname, -⟩ := h.convertOne_of_mem hb
  rw [hbname] at hfirst hname
  obtain rfl : c.name = child := by simpa using List.find?_some hc
  have hclass : (ofModel h m).index.parentClass? c.name = some last :=
    (Index.parentClass?_of_parent? hparent).trans hlast
  obtain ⟨fields, hfields, rfl⟩ := flatten_of_parent hclass hflat
  have hsame : first.name = last.name := hname.trans (Model.name_of_lastClass? hlast).symm
  obtain ⟨e, -, hfail⟩ | ⟨common, hf, hl⟩ := (ofModel h m).flatten_of_name hsame []
  · rw [hfields] at hfail
    cases hfail
  obtain rfl := Except.ok.inj (hfields.symm.trans hl)
  have hiff : common ++ (ofModel h m).ownFields first <+:
      common ++ (ofModel h m).ownFields last ++ (ofModel h m).levelFields c ↔
      (ofModel h m).ownFields first <+: (ofModel h m).ownFields last ++
        (ofModel h m).levelFields c := by
    rw [List.append_assoc, List.prefix_append_right_inj]
  refine ⟨c, first, last, _, _, hc, hfirst, hlast, convertClass_eq_ok_iff.2 ⟨_, hl, rfl⟩, rfl,
    convertOne_eq_ok_iff.2 ⟨first, hfirst, convertClass_eq_ok_iff.2 ⟨_, hf, rfl⟩⟩, hiff,
    fun hsingle => hiff.2 ?_⟩
  rw [Model.lastClass?_eq_class? hsingle, hfirst] at hlast
  rw [Option.some.inj hlast]
  exact List.prefix_append _ _

/-- Two declarations of the parent `P` with a field each, and a child without one. -/
def twoParents : Model where
  classes := [⟨"P", "P", none, [⟨"x", "Int", none⟩], []⟩, ⟨"P", "P", none, [⟨"y", "Int", none⟩], []⟩,
    ⟨"C", "C", none, [], []⟩]
  interfaces := []
  enums := []
  relations := [⟨"C", "P", .inheritance⟩]
  packages := []

def numberField (name : String) : AttributeSchema :=
  ⟨name, "number", none, none, none, ⟨none, ⟨"general", "number-field"⟩⟩, none, none⟩

theorem child_twoParents : standard.convertOne twoParents "C" =
    .ok ⟨"C", "file", "\x7bid\x7d", [numberField "y"], Permissions.all, some "P"⟩ := by
  decide +kernel

theorem parent_twoParents : standard.convertOne twoParents "P" =
    .ok ⟨"P", "file", "\x7bid\x7d", [numberField "x"], Permissions.all, none⟩ := by
  decide +kernel

theorem convertOne_extends_twoParents :
    twoParents.parent? "C" = some "P" ∧ "P" ∈ twoParents.classes.map (·.name) ∧
      ∃ inherited, (ofModel standard twoParents).convertClass
          ⟨"P", "P", none, [⟨"y", "Int", none⟩], []⟩ = .ok inherited ∧
        inherited.attributes <+: [numberField "y"] := by
  have hparent : twoParents.parent? "C" = some "P" := by decide
  have hdeclared : "P" ∈ twoParents.classes.map (·.name) := by decide
  obtain ⟨c, first, last, inherited, sp, -, -, hlast, hinherited, hfields, -⟩ :=
    convertOne_extends hparent hdeclared child_twoParents
  obtain rfl : ⟨"P", "P", none, [⟨"y", "Int", none⟩], []⟩ = last :=
    Option.some.inj ((show some _ = twoParents.lastClass? "P" by decide).trans hlast)
  exact ⟨hparent, hdeclared, inherited, hinherited, ⟨_, hfields.symm⟩⟩

/-- The schema of a child does not always begin with the schema of its parent. -/
theorem not_convertOne_prefix : ¬ ∀ (h : Heuristics) (m : Model) (child parent : String)
    (s sp : ClassSchema), child ∈ m.classes.map (·.name) → parent ∈ m.classes.map (·.name) →
    m.parent? child = some parent → h.convertOne m child = .ok s → h.convertOne m parent = .ok sp →
    sp.attributes <+: s.attributes := by
  intro hall
  have hprefix := hall standard twoParents "C" "P" _ _ (by decide) (by decide) (by decide)
    child_twoParents parent_twoParents
  exact absurd hprefix (by decide)

end Heuristics

end ClassDiagram
