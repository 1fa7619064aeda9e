import ClassDiagram.Proofs.Flatten
import Mathlib.Data.Sym.Sym2

/-! What becomes of the classes of a model depends on little of it. Of a class its name counts and
the names and types of its attributes, and of the relations the first parent of each name, the
interfaces of each class in their order, and the pairs that are composed. -/

namespace ClassDiagram

theorem mapM_eq_of_map_eq {α β ε σ : Type} {shape : α → σ} {g g' : α → Except ε β} {l l' : List α}
    (hl : l.map shape = l'.map shape)
    (hg : ∀ a ∈ l, ∀ a', shape a = shape a' → g a = g' a') : l.mapM g = l'.mapM g' := by
  induction l generalizing l' with
  | nil =>
    obtain rfl : l' = [] := List.map_eq_nil_iff.1 hl.symm
    rfl
  | cons a l ih =>
    cases l' with
    | nil => cases hl
    | cons a' l' =>
      obtain ⟨ha, hl⟩ := List.cons.inj hl
      rw [List.mapM_cons, List.mapM_cons, hg a List.mem_cons_self a' ha,
        ih hl fun b hb => hg b (List.mem_cons_of_mem a hb)]

/-- In two lists of equal shapes, what is found by its shape has the same shape. -/
theorem shape_find? {α σ : Type} {shape : α → σ} {l l' : List α} (hl : l.map shape = l'.map shape)
    (p : σ → Bool) : (l.find? fun a => p (shape a)).map shape =
      (l'.find? fun a => p (shape a)).map shape := by
  have hfind (l : List α) : (l.find? fun a => p (shape a)).map shape = (l.map shape).find? p :=
    List.find?_map.symm
  rw [hfind, hfind, hl]

theorem shape_find?_reverse {α σ : Type} {shape : α → σ} {l l' : List α}
    (hl : l.map shape = l'.map shape) (p : σ → Bool) :
    (l.reverse.find? fun a => p (shape a)).map shape =
      (l'.reverse.find? fun a => p (shape a)).map shape :=
  shape_find? (by rw [List.map_reverse, List.map_reverse, hl]) p

/-! ### The part that counts -/

def Attribute.shape (a : Attribute) : String × String := (a.name, a.type)

def Class.shape (c : Class) : String × List (String × String) :=
  (c.name, c.attributes.map Attribute.shape)

def Interface.shape (i : Interface) : String × List (String × String) :=
  (i.name, i.attributes.map Attribute.shape)

def Enumeration.shape (e : Enumeration) : String × List String := (e.name, e.values)

namespace Model

/-- The sources of the implementation relations to a name, in their order. -/
def implementedBy (m : Model) (name : String) : List String :=
  (m.relations.filter fun r => r.kind = .implementation && r.target = name).map (·.source)

/-- The pairs of names, in either order, that a composition joins. -/
def composed (m : Model) : Set (Sym2 String) :=
  {p | ∃ r ∈ m.relations, r.kind = .composition ∧ s(r.source, r.target) = p}

/-- Two models that differ only in what does not count. -/
structure SameInput (m m' : Model) : Prop where
  classes : m.classes.map Class.shape = m'.classes.map Class.shape
  enums : m.enums.map Enumeration.shape = m'.enums.map Enumeration.shape
  interfaces : m.interfaces.map Interface.shape = m'.interfaces.map Interface.shape
  parents : ∀ name, m.firstParent? name = m'.firstParent? name
  implemented : ∀ c ∈ m.classes, m.implementedBy c.name = m'.implementedBy c.name
  composed : m.composed = m'.composed

theorem composes_iff (m : Model) (a b : String) : m.composes a b = true ↔ s(a, b) ∈ m.composed := by
  simp [composes, composed, Relation.joins]

variable {m m' : Model}

theorem SameInput.lastClass (hm : SameInput m m') (n : String) :
    (m.lastClass? n).map Class.shape = (m'.lastClass? n).map Class.shape :=
  shape_find?_reverse hm.classes (·.1 = n)

theorem SameInput.lastEnum (hm : SameInput m m') (n : String) :
    (m.lastEnum? n).map Enumeration.shape = (m'.lastEnum? n).map Enumeration.shape :=
  shape_find?_reverse hm.enums (·.1 = n)

theorem SameInput.lastInterface (hm : SameInput m m') (n : String) :
    (m.lastInterface? n).map Interface.shape = (m'.lastInterface? n).map Interface.shape :=
  shape_find?_reverse hm.interfaces (·.1 = n)

end Model

namespace Converter

variable {h : Heuristics} {m m' : Model} {c c' : Class}

open Model (SameInput)

/-! ### From shapes to schemas -/

theorem relationSchema_congr (hm : SameInput m m') (owner target : String) (many : Bool) :
    m.relationSchema owner target many = m'.relationSchema owner target many := by
  have hcomposed : m.composes owner target = m'.composes owner target := by
    rw [Bool.eq_iff_iff, Model.composes_iff, Model.composes_iff, hm.composed]
  rw [Model.relationSchema, Model.relationSchema, hcomposed]

theorem attributeSchema_congr (h : Heuristics) (hm : SameInput m m') (owner : String)
    {a a' : Attribute} (ha : a.shape = a'.shape) :
    (ofModel h m).attributeSchema owner a = (ofModel h m').attributeSchema owner a' := by
  obtain ⟨hname, htype⟩ := Prod.mk.inj ha
  have henum := hm.lastEnum (TypeSpec.parse a'.type).base
  have hclass := congrArg Option.isSome (hm.lastClass (TypeSpec.parse a'.type).base)
  rw [Option.isSome_map, Option.isSome_map] at hclass
  unfold attributeSchema
  simp only [ofModel, Index.enums_find?, Index.classes_find?, hname, htype, hclass,
    relationSchema_congr hm]
  cases he : m.lastEnum? (TypeSpec.parse a'.type).base with
  | none =>
    rw [he] at henum
    rw [Option.map_eq_none_iff.1 henum.symm]
  | some e =>
    rw [he] at henum
    obtain ⟨e', he', hshape⟩ := Option.map_eq_some_iff.1 henum.symm
    have hvalues : e'.values = e.values := (Prod.mk.inj hshape).2
    simp only [he', hvalues]

theorem attributeSchemas_congr (h : Heuristics) (hm : SameInput m m') (owner : String)
    {as as' : List Attribute} (ha : as.map Attribute.shape = as'.map Attribute.shape) :
    as.map ((ofModel h m).attributeSchema owner) =
      as'.map ((ofModel h m').attributeSchema owner) := by
  induction as generalizing as' with
  | nil =>
    obtain rfl : as' = [] := List.map_eq_nil_iff.1 ha.symm
    rfl
  | cons a as ih =>
    cases as' with
    | nil => cases ha
    | cons a' as' =>
      obtain ⟨ha, has⟩ := List.cons.inj ha
      rw [List.map_cons, List.map_cons, attributeSchema_congr h hm owner ha, ih has]

theorem shape_levelAttributes (m : Model) (c : Class) :
    (m.levelAttributes c).map Attribute.shape =
      ((m.implementedBy c.name).flatMap fun n =>
        (((m.lastInterface? n).map Interface.shape).map Prod.snd).getD []) ++ c.shape.2 := by
  unfold Model.levelAttributes Model.implementedBy
  rw [List.map_append, List.map_flatMap, List.flatMap_map]
  congr 1
  apply List.flatMap_congr
  intro r _
  cases m.lastInterface? r.source <;> rfl

theorem levelFields_congr (h : Heuristics) (hm : SameInput m m') (hc : c ∈ m.classes)
    (hs : c.shape = c'.shape) :
    (ofModel h m).levelFields c = (ofModel h m').levelFields c' := by
  have hname : c.name = c'.name := congrArg Prod.fst hs
  rw [levelFields_eq, levelFields_eq, hname]
  apply attributeSchemas_congr h hm
  rw [shape_levelAttributes, shape_levelAttributes, hm.implemented c hc, hname, hs]
  simp only [hm.lastInterface]

/-- Flattening goes through classes of equal shapes in both models. -/
theorem flatten_congr (h : Heuristics) (hm : SameInput m m') (hc : c ∈ m.classes)
    (hs : c.shape = c'.shape) (chain : List String) :
    (ofModel h m).flatten chain c = (ofModel h m').flatten chain c' := by
  have hname : c.name = c'.name := congrArg Prod.fst hs
  induction hu : (ofModel h m).index.unseen chain c using Nat.strongRecOn
    generalizing chain c c' with
  | ind u ih =>
    by_cases hmem : c.name ∈ chain
    · rw [flatten_of_mem _ hmem, flatten_of_mem _ (hname ▸ hmem), hname]
    have hparent : ((ofModel h m).index.parentClass? c.name).map Class.shape =
        ((ofModel h m').index.parentClass? c'.name).map Class.shape := by
      simp only [ofModel, Index.parentClass?_ofModel, Option.map_bind, hm.parents, hname]
      exact congrArg _ (funext hm.lastClass)
    rw [flatten_of_not_mem _ hmem, flatten_of_not_mem _ (hname ▸ hmem),
      levelFields_congr h hm hc hs]
    cases hp : (ofModel h m).index.parentClass? c.name with
    | none =>
      rw [hp] at hparent
      rw [Option.map_eq_none_iff.1 hparent.symm]
    | some p =>
      rw [hp] at hparent
      obtain ⟨p', hp', hshape⟩ := Option.map_eq_some_iff.1 hparent.symm
      have hwalk : m.walk c 1 = some p := by rw [← parentClass?_eq h, hp]
      have hrest := ih _ (hu ▸ Index.unseen_lt hmem hp) (Model.walk_mem hc hwalk) hshape.symm
        (chain ++ [c.name]) (congrArg Prod.fst hshape.symm) rfl
      rw [hp']
      dsimp only
      rw [hrest, hname]

theorem title_eq (h : Heuristics) (c : Class) : h.title c =
    match (c.attributes.find? fun a => h.isTitleCode a.name).map titlePart with
    | none => h.fallbackTitle
    | some code =>
      match (c.attributes.find? fun a => h.isTitleName a.name).map titlePart with
      | some name => code ++ " - " ++ name
      | none => code := by
  unfold Heuristics.title
  cases c.attributes.find? fun a => h.isTitleCode a.name with
  | none => rfl
  | some code => cases c.attributes.find? fun a => h.isTitleName a.name <;> rfl

/-- The title looks at no more than the names of the attributes. -/
theorem title_congr (h : Heuristics) (hs : c.shape = c'.shape) : h.title c = h.title c' := by
  have hnames : c.attributes.map (·.name) = c'.attributes.map (·.name) := by
    have hfst := congrArg (List.map Prod.fst) (congrArg Prod.snd hs)
    rwa [Class.shape, Class.shape, List.map_map, List.map_map] at hfst
  have hpart (o : Option Attribute) :
      o.map titlePart = (o.map (·.name)).map fun n => titlePart ⟨n, "", none⟩ := by
    cases o <;> rfl
  have hfind (p : String → Bool) : (c.attributes.find? (p ·.name)).map titlePart =
      (c'.attributes.find? (p ·.name)).map titlePart := by
    rw [hpart, hpart, shape_find? hnames p]
  rw [title_eq, title_eq, hfind h.isTitleCode, hfind h.isTitleName]

theorem convertClass_congr (h : Heuristics) (hm : SameInput m m') (hc : c ∈ m.classes)
    (hs : c.shape = c'.shape) :
    (ofModel h m).convertClass c = (ofModel h m').convertClass c' := by
  have hname : c.name = c'.name := congrArg Prod.fst hs
  have hparent : (ofModel h m).index.parents.find? c.name =
      (ofModel h m').index.parents.find? c'.name := by
    simp only [ofModel, Index.parents_find?, hm.parents, hname]
  rw [convertClass, convertClass, flatten_congr h hm hc hs, title_congr _ hs, hparent, hname]
  rfl

end Converter

/-! ### What does not count -/

namespace Model

/-- The model with nothing but what counts: without display names, packages, methods and default
values, and with the relations of three kinds only, one kind after the other. -/
def bare (m : Model) : Model where
  classes := m.classes.map fun c =>
    ⟨c.name, "", none, c.attributes.map fun a => ⟨a.name, a.type, none⟩, []⟩
  interfaces := m.interfaces.map fun i =>
    ⟨i.name, none, i.attributes.map fun a => ⟨a.name, a.type, none⟩⟩
  enums := m.enums.map fun e => ⟨e.name, none, e.values⟩
  relations := m.relations.filter (·.kind = .inheritance) ++
    m.relations.filter (·.kind = .implementation) ++ m.relations.filter (·.kind = .composition)
  packages := []

/-- Among the relations laid bare, those of a kind that counts are in their order. -/
theorem filter_bare (m : Model) {k : RelationKind}
    (hk : k ∈ [.inheritance, .implementation, .composition]) :
    m.bare.relations.filter (·.kind = k) = m.relations.filter (·.kind = k) := by
  have hother {k' : RelationKind} (hne : k' ≠ k) :
      (m.relations.filter (·.kind = k')).filter (·.kind = k) = [] := by
    refine List.filter_eq_nil_iff.2 fun r hr => ?_
    have hkind : r.kind = k' := by simpa using (List.mem_filter.1 hr).2
    simpa [hkind] using hne
  unfold bare
  simp only [List.mem_cons, List.not_mem_nil, or_false] at hk
  rcases hk with rfl | rfl | rfl <;> simp [hother]

theorem sameInput_bare (m : Model) : SameInput m m.bare where
  classes := by simp [bare, Class.shape, Attribute.shape, Function.comp_def]
  enums := by simp [bare, Enumeration.shape, Function.comp_def]
  interfaces := by simp [bare, Interface.shape, Attribute.shape, Function.comp_def]
  parents name := by
    have hfind (m : Model) : m.firstParent? name =
        ((m.relations.filter (·.kind = .inheritance)).find? (·.source = name)).map (·.target) := by
      simp [firstParent?, List.find?_filter]
    rw [hfind, hfind, m.filter_bare (by decide)]
  implemented c _ := by
    have hfilter (m : Model) : m.implementedBy c.name =
        ((m.relations.filter (·.kind = .implementation)).filter (·.target = c.name)).map
          (·.source) := by
      simp [implementedBy, List.filter_filter, Bool.and_comm]
    rw [hfilter, hfilter, m.filter_bare (by decide)]
  composed := by
    have hmem (m : Model) : m.composed =
        {p | ∃ r ∈ m.relations.filter (·.kind = .composition), s(r.source, r.target) = p} := by
      simp [composed, and_assoc]
    rw [hmem, hmem, m.filter_bare (by decide)]

end Model

namespace Heuristics

open Model (SameInput)

variable {m m' : Model}

theorem convert_of_sameInput (h : Heuristics) (hm : SameInput m m') : h.convert m = h.convert m' :=
  mapM_eq_of_map_eq hm.classes fun _ hc _ hs => Converter.convertClass_congr h hm hc hs

theorem convertOne_of_sameInput (h : Heuristics) (hm : SameInput m m') (name : String) :
    h.convertOne m name = h.convertOne m' name := by
  have hclass : (m.class? name).map Class.shape = (m'.class? name).map Class.shape :=
    shape_find? hm.classes (·.1 = name)
  unfold convertOne
  cases hc : m.class? name with
  | none =>
    rw [hc] at hclass
    rw [Option.map_eq_none_iff.1 hclass.symm]
  | some c =>
    rw [hc] at hclass
    obtain ⟨c', hc', hs⟩ := Option.map_eq_some_iff.1 hclass.symm
    rw [hc']
    exact Converter.convertClass_congr h hm (List.mem_of_find?_eq_some hc) hs.symm

/-- Two models that differ only in what does not count become the same schemas, or fail for the same
reason, and so does each single class. In particular a model can be laid bare. -/
theorem convert_congr (h : Heuristics) (hm : SameInput m m') :
    h.convert m = h.convert m' ∧ (∀ name, h.convertOne m name = h.convertOne m' name) ∧
      h.convert m.bare = h.convert m ∧ ∀ name, h.convertOne m.bare name = h.convertOne m name :=
  ⟨h.convert_of_sameInput hm, h.convertOne_of_sameInput hm,
    (h.convert_of_sameInput m.sameInput_bare).symm,
    fun name => (h.convertOne_of_sameInput m.sameInput_bare name).symm⟩

/-- A class with a field of each sort below a parent that has an interface, and a cycle. -/
def stall : Model where
  classes := [⟨"A", "An A", some "p", [⟨"code", "B[0..n]", some "x"⟩], [⟨"f", "void"⟩]⟩,
    ⟨"B", "B", none, [⟨"state", "E", none⟩], []⟩, ⟨"C", "C", none, [], []⟩]
  interfaces := [⟨"I", some "p", [⟨"tag", "Int", none⟩]⟩]
  enums := [⟨"E", none, ["ON"]⟩]
  relations := [⟨"A", "B", .inheritance⟩, ⟨"I", "B", .implementation⟩, ⟨"A", "B", .composition⟩,
    ⟨"C", "C", .inheritance⟩, ⟨"A", "C", .inheritance⟩]
  packages := ["p"]

/-- The same in other words: the relations in another order, with more of them, and turned round
where they are composed. -/
def stallAgain : Model where
  classes := [⟨"A", "A", none, [⟨"code", "B[0..n]", none⟩], []⟩,
    ⟨"B", "B", some "q", [⟨"state", "E", some "ON"⟩], [⟨"g", "Int"⟩]⟩, ⟨"C", "See", none, [], []⟩]
  interfaces := [⟨"I", none, [⟨"tag", "Int", some "1"⟩]⟩]
  enums := [⟨"E", some "q", ["ON"]⟩]
  relations := [⟨"B", "A", .composition⟩, ⟨"A", "C", .dependency⟩, ⟨"I", "B", .implementation⟩,
    ⟨"C", "C", .inheritance⟩, ⟨"A", "B", .inheritance⟩]
  packages := []

theorem convert_congr_stall :
    SameInput stall stallAgain ∧
      standard.convert stall = standard.convert stallAgain ∧
      standard.convertOne stall "B" = standard.convertOne stallAgain "B" := by
  have hm : SameInput stall stallAgain := by
    refine ⟨by decide, by decide, by decide, fun name => ?_, by decide, ?_⟩
    · by_cases ha : "A" = name
      · subst ha
        decide
      by_cases hc : "C" = name
      · subst hc
        decide
      simp [Model.firstParent?, stall, stallAgain, ha, hc]
    · ext p
      simp [Model.composed, stall, stallAgain, Sym2.eq_swap]
  obtain ⟨hall, hone, -, -⟩ := convert_congr standard hm
  exact ⟨hm, hall, hone "B"⟩

end Heuristics

end ClassDiagram
