import ClassDiagram.Proofs.Latest
import ClassDiagram.Proofs.Step

/-! Reading on never takes back what was read. Relations and packages are only ever appended, and of
the entities of a kind all but the last are final; the last may still gain members behind those that
it has. One more line adds at most one package, one entity, one member and one relation. -/

namespace ClassDiagram

open Text Markup

/-- A list that goes on another one. The elements but the last of the shorter list stay as they are,
and the last one is related to the element in its place. -/
structure GrowsAtEnd {α : Type} (R : α → α → Prop) (l l' : List α) : Prop where
  length_le : l.length ≤ l'.length
  front : ∀ i, i + 1 < l.length → l'[i]? = l[i]?
  last : ∀ i a, i + 1 = l.length → l[i]? = some a → ∃ a', l'[i]? = some a' ∧ R a a'

namespace GrowsAtEnd

variable {α : Type} {R : α → α → Prop} {l l' l'' : List α}

theorem append (hrefl : ∀ a, R a a) (l l' : List α) : GrowsAtEnd R l (l ++ l') where
  length_le := by simp
  front i hi := List.getElem?_append_left (by omega)
  last i a hi ha := ⟨a, by rw [List.getElem?_append_left (by omega), ha], hrefl a⟩

theorem refl (hrefl : ∀ a, R a a) (l : List α) : GrowsAtEnd R l l := by
  simpa using append hrefl l []

/-- What is the last element of the first list is the last of the second or stands before it. -/
theorem trans (htrans : ∀ {a b c}, R a b → R b c → R a c) (h : GrowsAtEnd R l l')
    (h' : GrowsAtEnd R l' l'') : GrowsAtEnd R l l'' where
  length_le := h.length_le.trans h'.length_le
  front i hi := (h'.front i (hi.trans_le h.length_le)).trans (h.front i hi)
  last i a hi ha := by
    obtain ⟨b, hb, hab⟩ := h.last i a hi ha
    have hle : i + 1 ≤ l'.length := hi ▸ h.length_le
    rcases Nat.lt_or_eq_of_le hle with hlt | heq
    · exact ⟨b, (h'.front i hlt).trans hb, hab⟩
    · obtain ⟨c, hc, hbc⟩ := h'.last i b heq hb
      exact ⟨c, hc, htrans hab hbc⟩

theorem modify {f : α → α} (hf : ∀ a, R a (f a)) {i : ℕ} (hi : i + 1 = l.length) :
    GrowsAtEnd R l (l.modify i f) where
  length_le := by simp
  front j hj := List.getElem?_modify_ne f l (by omega)
  last j a hj ha := by
    obtain rfl : i = j := by omega
    exact ⟨f a, by rw [List.getElem?_modify_eq, ha, Option.map_eq_map, Option.map_some], hf a⟩

end GrowsAtEnd

/-! ### Entities that gain members -/

structure Class.Extends (c c' : Class) : Prop where
  name : c'.name = c.name
  displayName : c'.displayName = c.displayName
  package : c'.package = c.package
  attributes : c.attributes <+: c'.attributes
  methods : c.methods <+: c'.methods

structure Interface.Extends (i i' : Interface) : Prop where
  name : i'.name = i.name
  package : i'.package = i.package
  attributes : i.attributes <+: i'.attributes

structure Enumeration.Extends (e e' : Enumeration) : Prop where
  name : e'.name = e.name
  package : e'.package = e.package
  values : e.values <+: e'.values

theorem Class.Extends.refl (c : Class) : c.Extends c :=
  ⟨rfl, rfl, rfl, List.prefix_refl _, List.prefix_refl _⟩

theorem Class.Extends.trans {a b c : Class} (h : a.Extends b) (h' : b.Extends c) : a.Extends c :=
  ⟨h'.name.trans h.name, h'.displayName.trans h.displayName, h'.package.trans h.package,
    h.attributes.trans h'.attributes, h.methods.trans h'.methods⟩

theorem Interface.Extends.refl (i : Interface) : i.Extends i := ⟨rfl, rfl, List.prefix_refl _⟩

theorem Interface.Extends.trans {a b c : Interface} (h : a.Extends b) (h' : b.Extends c) :
    a.Extends c :=
  ⟨h'.name.trans h.name, h'.package.trans h.package, h.attributes.trans h'.attributes⟩

theorem Enumeration.Extends.refl (e : Enumeration) : e.Extends e := ⟨rfl, rfl, List.prefix_refl _⟩

theorem Enumeration.Extends.trans {a b c : Enumeration} (h : a.Extends b) (h' : b.Extends c) :
    a.Extends c :=
  ⟨h'.name.trans h.name, h'.package.trans h.package, h.values.trans h'.values⟩

/-! ### Models that go on one another -/

namespace Model

structure Extends (m m' : Model) : Prop where
  classes : GrowsAtEnd Class.Extends m.classes m'.classes
  interfaces : GrowsAtEnd Interface.Extends m.interfaces m'.interfaces
  enums : GrowsAtEnd Enumeration.Extends m.enums m'.enums
  relations : m.relations <+: m'.relations
  packages : m.packages <+: m'.packages

variable {m m' m'' : Model} {e : EntityRef}

theorem Extends.refl (m : Model) : m.Extends m where
  classes := .refl .refl m.classes
  interfaces := .refl .refl m.interfaces
  enums := .refl .refl m.enums
  relations := List.prefix_refl _
  packages := List.prefix_refl _

theorem Extends.trans (h : m.Extends m') (h' : m'.Extends m'') : m.Extends m'' where
  classes := h.classes.trans .trans h'.classes
  interfaces := h.interfaces.trans .trans h'.interfaces
  enums := h.enums.trans .trans h'.enums
  relations := h.relations.trans h'.relations
  packages := h.packages.trans h'.packages

theorem extends_addPackage (m : Model) (name : String) : m.Extends (m.addPackage name) := by
  unfold addPackage
  split
  · exact .refl m
  · exact { Extends.refl m with packages := List.prefix_append _ _ }

theorem extends_addRelation (m : Model) (r : Relation) : m.Extends (m.addRelation r).1 := by
  unfold addRelation
  split
  · exact .refl m
  · exact { Extends.refl m with relations := List.prefix_append _ _ }

theorem extends_addMember (h : m.IsLatest e) (line : List Char) :
    m.Extends (Session.addMember m e line) := by
  unfold IsLatest at h
  rcases Session.addMember_cases m e line with heq | ⟨hk, -, f, -, heq⟩ | ⟨hk, -, a, -, heq⟩ |
    ⟨hk, -, a, -, heq⟩ | ⟨hk, v, -, heq⟩ <;> rw [heq]
  · exact .refl m
  all_goals rw [hk] at h
  · have hf (c : Class) : c.Extends { c with methods := c.methods ++ [f] } :=
      { Class.Extends.refl c with methods := List.prefix_append _ _ }
    exact { Extends.refl m with classes := .modify hf h }
  · have ha (c : Class) : c.Extends { c with attributes := c.attributes ++ [a] } :=
      { Class.Extends.refl c with attributes := List.prefix_append _ _ }
    exact { Extends.refl m with classes := .modify ha h }
  · have ha (i : Interface) : i.Extends { i with attributes := i.attributes ++ [a] } :=
      { Interface.Extends.refl i with attributes := List.prefix_append _ _ }
    exact { Extends.refl m with interfaces := .modify ha h }
  · have hv (e : Enumeration) : e.Extends { e with values := e.values ++ [v] } :=
      { Enumeration.Extends.refl e with values := List.prefix_append _ _ }
    exact { Extends.refl m with enums := .modify hv h }

/-! ### How much a model holds -/

def entityCount (m : Model) : ℕ := m.classes.length + m.interfaces.length + m.enums.length

/-- The names of all attributes and methods, and all values. -/
def memberNames (m : Model) : List String :=
  (m.classes.flatMap fun c => c.attributes.map (·.name) ++ c.methods.map (·.name)) ++
    (m.interfaces.flatMap fun i => i.attributes.map (·.name)) ++ m.enums.flatMap (·.values)

/-- Bounds on how much more one model holds than another. -/
structure Adds (packages entities members relations : ℕ) (m m' : Model) : Prop where
  packages_le : m'.packages.length ≤ m.packages.length + packages
  entities_le : m'.entityCount ≤ m.entityCount + entities
  members_le : m'.memberNames.length ≤ m.memberNames.length + members
  relations_le : m'.relations.length ≤ m.relations.length + relations

theorem Adds.refl (m : Model) : Adds 0 0 0 0 m m := ⟨le_rfl, le_rfl, le_rfl, le_rfl⟩

theorem Adds.mono {p e k r p' e' k' r' : ℕ} (h : Adds p e k r m m')
    (hle : p ≤ p' ∧ e ≤ e' ∧ k ≤ k' ∧ r ≤ r') : Adds p' e' k' r' m m' :=
  ⟨h.packages_le.trans (by omega), h.entities_le.trans (by omega), h.members_le.trans (by omega),
    h.relations_le.trans (by omega)⟩

theorem Adds.trans {p e k r p' e' k' r' : ℕ} (h : Adds p e k r m m') (h' : Adds p' e' k' r' m' m'') :
    Adds (p + p') (e + e') (k + k') (r + r') m m'' where
  packages_le := by have := h.packages_le; have := h'.packages_le; omega
  entities_le := by have := h.entities_le; have := h'.entities_le; omega
  members_le := by have := h.members_le; have := h'.members_le; omega
  relations_le := by have := h.relations_le; have := h'.relations_le; omega

theorem adds_addPackage (m : Model) (name : String) : Adds 1 0 0 0 m (m.addPackage name) := by
  unfold addPackage
  split
  · exact (Adds.refl m).mono (by decide)
  · exact { Adds.refl m with packages_le := by simp }

theorem adds_addRelation (m : Model) (r : Relation) : Adds 0 0 0 1 m (m.addRelation r).1 := by
  unfold addRelation
  split
  · exact (Adds.refl m).mono (by decide)
  · exact { Adds.refl m with relations_le := by simp }

theorem length_flatMap_modify_le {α β : Type} {f : α → α} {g : α → List β}
    (h : ∀ a, (g (f a)).length ≤ (g a).length + 1) (l : List α) (i : ℕ) :
    ((l.modify i f).flatMap g).length ≤ (l.flatMap g).length + 1 := by
  induction l generalizing i with
  | nil => cases i <;> simp
  | cons a l ih =>
    cases i with
    | zero =>
      have ha := h a
      simp only [List.modify_zero_cons, List.flatMap_cons, List.length_append]
      omega
    | succ i =>
      have hi := ih i
      simp only [List.modify_succ_cons, List.flatMap_cons, List.length_append]
      omega

theorem adds_addMember (m : Model) (e : EntityRef) (line : List Char) :
    Adds 0 0 1 0 m (Session.addMember m e line) := by
  rcases Session.addMember_cases m e line with heq | ⟨-, -, f, -, heq⟩ | ⟨-, -, a, -, heq⟩ |
    ⟨-, -, a, -, heq⟩ | ⟨-, v, -, heq⟩ <;> rw [heq]
  · exact (Adds.refl m).mono (by decide)
  · have hlength := length_flatMap_modify_le
      (f := fun c : Class => { c with methods := c.methods ++ [f] })
      (g := fun c => c.attributes.map (·.name) ++ c.methods.map (·.name))
      (by simp [Nat.add_assoc]) m.classes e.index
    refine ⟨le_rfl, by simp [entityCount, addMethod], ?_, le_rfl⟩
    simp only [memberNames, addMethod, List.length_append]
    omega
  · have hlength := length_flatMap_modify_le
      (f := fun c : Class => { c with attributes := c.attributes ++ [a] })
      (g := fun c => c.attributes.map (·.name) ++ c.methods.map (·.name))
      (by simp only [List.length_append, List.length_map, List.length_singleton]; omega)
      m.classes e.index
    refine ⟨le_rfl, by simp [entityCount, addAttribute], ?_, le_rfl⟩
    simp only [memberNames, addAttribute, List.length_append]
    omega
  · have hlength := length_flatMap_modify_le
      (f := fun i : Interface => { i with attributes := i.attributes ++ [a] })
      (g := fun i => i.attributes.map (·.name)) (by simp) m.interfaces e.index
    refine ⟨le_rfl, by simp [entityCount, addInterfaceAttribute], ?_, le_rfl⟩
    simp only [memberNames, addInterfaceAttribute, List.length_append]
    omega
  · have hlength := length_flatMap_modify_le
      (f := fun e : Enumeration => { e with values := e.values ++ [v] })
      (g := fun e => e.values) (by simp) m.enums e.index
    refine ⟨le_rfl, by simp [entityCount, addValue], ?_, le_rfl⟩
    simp only [memberNames, addValue, List.length_append]
    omega

end Model

namespace Markup

namespace Session

variable {s : Session} {line rest : List Char} {m : Model} {e : EntityRef} {p : Option String}

/-- An entity that a head adds is the last of its kind. -/
theorem Declares.latest (h : Declares s line m e rest) : m.IsLatest e := by
  cases h <;> simp [Model.IsLatest, Model.count, Model.addClass, Model.addInterface, Model.addEnum]

theorem Declares.extends (h : Declares s line m e rest) : s.model.Extends m := by
  cases h with
  | classes => exact { Model.Extends.refl s.model with classes := .append .refl _ _ }
  | interfaces => exact { Model.Extends.refl s.model with interfaces := .append .refl _ _ }
  | enums => exact { Model.Extends.refl s.model with enums := .append .refl _ _ }

theorem Declares.adds (h : Declares s line m e rest) : Model.Adds 0 1 0 0 s.model m := by
  cases h
  all_goals
    refine ⟨le_rfl, ?_, ?_, le_rfl⟩
    · simp only [Model.entityCount, Model.addClass, Model.addInterface, Model.addEnum,
        List.length_append, List.length_singleton]
      omega
    · simp [Model.memberNames, Model.addClass, Model.addInterface, Model.addEnum]

/-- Members only reach the entity of the mode or of the head, and either is the last of its kind. -/
theorem Writes.extends (h : Writes s line m p) (hs : s.Valid) : s.model.Extends m := by
  cases h with
  | skip => exact .refl _
  | closePackage => exact .refl _
  | openPackage => exact Model.extends_addPackage _ _
  | relation => exact Model.extends_addRelation _ _
  | @member e mode =>
    have hlatest : s.model.IsLatest e := hs.latest e (by rw [mode]; rfl)
    exact Model.extends_addMember hlatest _
  | head declares => exact declares.extends
  | headMember declares =>
    exact declares.extends.trans (Model.extends_addMember declares.latest _)

theorem Writes.adds (h : Writes s line m p) : Model.Adds 1 1 1 1 s.model m := by
  cases h with
  | skip => exact (Model.Adds.refl _).mono (by decide)
  | closePackage => exact (Model.Adds.refl _).mono (by decide)
  | openPackage => exact (Model.adds_addPackage _ _).mono (by decide)
  | relation => exact (Model.adds_addRelation _ _).mono (by decide)
  | member => exact (Model.adds_addMember _ _ _).mono (by decide)
  | head declares => exact declares.adds.mono (by decide)
  | headMember declares =>
    exact (declares.adds.trans (Model.adds_addMember _ _ _)).mono (by decide)

theorem extends_step (hs : s.Valid) (line : List Char) : s.model.Extends (s.step line).model :=
  (s.step_writes line).extends hs

theorem extends_run (hs : s.Valid) (lines : List (List Char)) :
    s.model.Extends (s.run lines).model := by
  induction lines generalizing s with
  | nil => exact .refl _
  | cons line lines ih => exact (extends_step hs line).trans (ih (sound_step hs line).valid)

theorem adds_run {lines : List (List Char)} (h : lines.length ≤ 1) :
    Model.Adds 1 1 1 1 s.model (s.run lines).model := by
  match lines with
  | [] => exact (Model.Adds.refl _).mono (by decide)
  | [line] => exact (s.step_writes line).adds

end Session

theorem sessionAfter_append {t₁ t₂ : String} (hend : EndsLine t₁.toList) :
    sessionAfter (t₁ ++ t₂) = (sessionAfter t₁).run (lines t₂.toList) := by
  rw [sessionAfter, String.toList_append, lines_append hend, Session.run_append]
  rfl

/-- The model of a text that ends a line is the beginning of the model of every longer text, and one
more line adds at most one thing of each sort. -/
theorem parse_extends {t₁ t₂ : String} (hend : EndsLine t₁.toList) :
    (parse t₁).Extends (parse (t₁ ++ t₂)) ∧
      ((lines t₂.toList).length ≤ 1 → Model.Adds 1 1 1 1 (parse t₁) (parse (t₁ ++ t₂))) := by
  have hvalid : (sessionAfter t₁).Valid := Session.valid_run Session.valid_start _
  rw [parse, parse, sessionAfter_append hend]
  exact ⟨Session.extends_run hvalid _, Session.adds_run⟩

/-- A text that ends in a note in the body of a class. -/
def halfway : String := "package p \x7b\nclass A \x7b\nx : Int\nnote left\n"

/-- What goes on with the body, and then declares the same name once more. -/
def onward : String := "end note\nf() : Int\n\x7d\n\x7d\nclass A \x7b\ny : Int\n"

theorem parse_extends_halfway : EndsLine halfway.toList ∧
    (parse halfway).Extends (parse (halfway ++ onward)) ∧
    (parse (halfway ++ onward)).classes =
      [⟨"A", "A", some "p", [⟨"x", "Int", none⟩], [⟨"f", "Int"⟩]⟩,
        ⟨"A", "A", none, [⟨"y", "Int", none⟩], []⟩] ∧
    Model.Adds 1 1 1 1 (parse onward) (parse (onward ++ "enum E \x7b v")) := by
  have hhalf : EndsLine halfway.toList := by decide
  have honward : EndsLine onward.toList := by decide
  have hline : (lines "enum E \x7b v".toList).length ≤ 1 := by decide
  have hclasses : (parse (halfway ++ onward)).classes =
      [⟨"A", "A", some "p", [⟨"x", "Int", none⟩], [⟨"f", "Int"⟩]⟩,
        ⟨"A", "A", none, [⟨"y", "Int", none⟩], []⟩] := by decide
  exact ⟨hhalf, (parse_extends hhalf).1, hclasses, (parse_extends honward).2 hline⟩

end Markup

end ClassDiagram
