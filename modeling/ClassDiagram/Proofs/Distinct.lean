import ClassDiagram.Model.Filter
import ClassDiagram.Proofs.Package
import ClassDiagram.Proofs.Repeats
import ClassDiagram.Proofs.Step
import Mathlib.Data.List.Nodup

/-! No relation and no package is recorded twice, whether a model was read or built by hand. The
relations of a text are the first occurrences of those that its lines state, and the packages that
its entities name are all recorded. -/

namespace ClassDiagram

open Text Markup

namespace Model

structure Distinct (m : Model) : Prop where
  relations : m.relations.Nodup
  packages : m.packages.Nodup

/-- Every package that an entity names is recorded, and so is the one that is open. -/
structure Listed (m : Model) (package : Option String) : Prop where
  current : ∀ p ∈ package, p ∈ m.packages
  entities : ∀ k, ∀ x ∈ m.packaged k, ∀ p ∈ x.2, p ∈ m.packages

variable {m m' : Model} {package : Option String}

theorem Distinct.of_eq (h : m.Distinct) (hr : m'.relations = m.relations)
    (hp : m'.packages = m.packages) : m'.Distinct :=
  ⟨hr ▸ h.relations, hp ▸ h.packages⟩

theorem Distinct.addPackage (h : m.Distinct) (name : String) : (m.addPackage name).Distinct := by
  unfold Model.addPackage
  split
  · exact h
  · next hname =>
    exact ⟨h.relations, h.packages.append (List.nodup_singleton _) (List.disjoint_singleton.2 hname)⟩

theorem Distinct.addRelation (h : m.Distinct) (r : Relation) : (m.addRelation r).1.Distinct := by
  unfold Model.addRelation
  split
  · exact h
  · next hr =>
    exact ⟨h.relations.append (List.nodup_singleton _) (List.disjoint_singleton.2 hr), h.packages⟩

theorem addRelation_snd (m : Model) (r : Relation) :
    (m.addRelation r).2 = true ↔ r ∉ m.relations := by
  unfold addRelation
  split <;> simp_all

theorem addRelation_of_mem {r : Relation} (h : r ∈ m.relations) : (m.addRelation r).1 = m := by
  rw [addRelation, if_pos h]

theorem packages_addRelation (m : Model) (r : Relation) :
    (m.addRelation r).1.packages = m.packages := by
  unfold addRelation
  split <;> rfl

theorem mem_packages_addPackage {name p : String} :
    p ∈ (m.addPackage name).packages ↔ p ∈ m.packages ∨ p = name := by
  unfold addPackage
  split
  · next hname =>
    refine ⟨.inl, ?_⟩
    rintro (hp | rfl)
    · exact hp
    · exact hname
  · simp

theorem relations_addPackage (m : Model) (name : String) :
    (m.addPackage name).relations = m.relations := by
  unfold addPackage
  split <;> rfl

theorem addMember_frame (m : Model) (e : EntityRef) (line : List Char) :
    (Session.addMember m e line).relations = m.relations ∧
      (Session.addMember m e line).packages = m.packages := by
  rcases Session.addMember_cases m e line with h | ⟨-, -, _, -, h⟩ | ⟨-, -, _, -, h⟩ |
    ⟨-, -, _, -, h⟩ | ⟨-, _, -, h⟩ <;> rw [h] <;> exact ⟨rfl, rfl⟩

theorem Distinct.addMember (h : m.Distinct) (e : EntityRef) (line : List Char) :
    (Session.addMember m e line).Distinct :=
  h.of_eq (addMember_frame m e line).1 (addMember_frame m e line).2

theorem Listed.addMember (h : m.Listed package) (e : EntityRef) (line : List Char) :
    (Session.addMember m e line).Listed package := by
  constructor <;> rw [(addMember_frame m e line).2]
  · exact h.current
  · rw [packaged_addMember]
    exact h.entities

end Model

namespace Markup

namespace Session

variable {s : Session} {line rest : List Char} {m : Model} {e : EntityRef} {p : Option String}

/-- The relations that some more lines state, each line in the session that reads it. -/
def recognised (s : Session) : List (List Char) → List Relation
  | [] => []
  | line :: lines => (s.relation? (trim line)).toList ++ (s.step line).recognised lines

theorem Declares.relations (h : Declares s line m e rest) : m.relations = s.model.relations := by
  cases h <;> rfl

theorem Declares.packages (h : Declares s line m e rest) : m.packages = s.model.packages := by
  cases h <;> rfl

/-- The entity that a head adds is the only one that is new, and it has the package of the session. -/
theorem Declares.packaged (h : Declares s line m e rest) {k : EntityKind}
    {x : String × Option String} (hx : x ∈ m.packaged k) :
    x ∈ s.model.packaged k ∨ x.2 = s.package := by
  cases h <;> cases k <;>
    simp only [Model.packaged, Model.addClass, Model.addInterface, Model.addEnum, List.map_append,
      List.map_cons, List.map_nil, List.mem_append, List.mem_singleton] at hx ⊢
  all_goals first
    | exact .inl hx
    | exact hx.imp_right fun hx => by rw [hx]

theorem Declares.listed (h : Declares s line m e rest) (hs : s.model.Listed s.package) :
    m.Listed s.package := by
  constructor <;> rw [h.packages]
  · exact hs.current
  · intro k x hx p hp
    rcases h.packaged hx with hold | hnew
    · exact hs.entities k x hold p hp
    · exact hs.current p (hnew ▸ hp)

theorem Writes.distinct (h : Writes s line m p) (hs : s.model.Distinct) : m.Distinct := by
  cases h with
  | skip => exact hs
  | closePackage => exact hs
  | openPackage => exact hs.addPackage _
  | relation => exact hs.addRelation _
  | member => exact hs.addMember _ _
  | head declares => exact hs.of_eq declares.relations declares.packages
  | headMember declares => exact (hs.of_eq declares.relations declares.packages).addMember _ _

theorem Writes.listed (h : Writes s line m p) (hs : s.model.Listed s.package) : m.Listed p := by
  cases h with
  | skip => exact hs
  | closePackage => exact ⟨fun _ hp => (nomatch hp), hs.entities⟩
  | @openPackage name =>
    refine ⟨fun p hp => ?_, fun k x hx p hp => ?_⟩
    · obtain rfl : name = p := Option.some.inj hp
      exact Model.mem_packages_addPackage.2 (.inr rfl)
    · rw [Model.packaged_addPackage] at hx
      exact Model.mem_packages_addPackage.2 (.inl (hs.entities k x hx p hp))
  | relation =>
    constructor <;> rw [Model.packages_addRelation]
    · exact hs.current
    · rw [Model.packaged_addRelation]
      exact hs.entities
  | member => exact hs.addMember _ _
  | head declares => exact declares.listed hs
  | headMember declares => exact (declares.listed hs).addMember _ _

theorem Writes.relations_of_none (h : Writes s line m p) (hnone : s.relation? line = none) :
    m.relations = s.model.relations := by
  cases h with
  | skip => rfl
  | closePackage => rfl
  | openPackage => exact Model.relations_addPackage _ _
  | relation found =>
    rw [hnone] at found
    contradiction
  | member => exact (Model.addMember_frame _ _ _).1
  | head declares => exact declares.relations
  | headMember declares => exact (Model.addMember_frame _ _ _).1.trans declares.relations

theorem relations_step {found : List Relation} (h : s.model.relations = found.eraseDups)
    (line : List Char) : (s.step line).model.relations =
      (found ++ (s.relation? (trim line)).toList).eraseDups := by
  cases hr : s.relation? (trim line) with
  | none =>
    rw [(s.step_writes line).relations_of_none hr, h, Option.toList_none, List.append_nil]
  | some r =>
    have hmem : r ∈ s.model.relations ↔ r ∈ found := by rw [h, List.mem_eraseDups]
    rw [step_of_relation? hr, Option.toList_some, eraseDups_append_singleton, Model.addRelation, ← h]
    by_cases hfound : r ∈ found
    · rw [if_pos hfound, if_pos (hmem.2 hfound)]
    · rw [if_neg hfound, if_neg (mt hmem.1 hfound)]

theorem relations_run {found : List Relation} (h : s.model.relations = found.eraseDups)
    (lines : List (List Char)) :
    (s.run lines).model.relations = (found ++ s.recognised lines).eraseDups := by
  induction lines generalizing s found with
  | nil => rw [run_nil, h, recognised, List.append_nil]
  | cons line lines ih =>
    rw [run_cons, ih (relations_step h line), recognised, List.append_assoc]

theorem distinct_run (h : s.model.Distinct) (lines : List (List Char)) :
    (s.run lines).model.Distinct := by
  induction lines generalizing s with
  | nil => exact h
  | cons line lines ih => exact ih ((s.step_writes line).distinct h)

theorem listed_run (h : s.model.Listed s.package) (lines : List (List Char)) :
    (s.run lines).model.Listed (s.run lines).package := by
  induction lines generalizing s with
  | nil => exact h
  | cons line lines ih => exact ih ((s.step_writes line).listed h)

end Session

theorem distinct_empty : Model.empty.Distinct := ⟨List.nodup_nil, List.nodup_nil⟩

theorem distinct_parse (text : String) : (parse text).Distinct :=
  Session.distinct_run distinct_empty _

/-- What can be done with a model. Reading a text puts its model in the place of the one before. -/
inductive Edit where
  | addClass (c : Class)
  | addInterface (i : Interface)
  | addEnum (e : Enumeration)
  | addPackage (name : String)
  | addRelation (r : Relation)
  | filter (f : Filter)
  | parse (text : String)
  deriving DecidableEq, Repr

def Edit.apply (m : Model) : Edit → Model
  | addClass c => m.addClass c
  | addInterface i => m.addInterface i
  | addEnum e => m.addEnum e
  | addPackage name => m.addPackage name
  | addRelation r => (m.addRelation r).1
  | filter f => m.filter f
  | parse text => Markup.parse text

theorem Edit.distinct {m : Model} (h : m.Distinct) (edit : Edit) : (edit.apply m).Distinct := by
  cases edit with
  | addClass => exact h.of_eq rfl rfl
  | addInterface => exact h.of_eq rfl rfl
  | addEnum => exact h.of_eq rfl rfl
  | addPackage name => exact h.addPackage name
  | addRelation r => exact h.addRelation r
  | filter => exact h.of_eq rfl rfl
  | parse text => exact distinct_parse text

theorem distinct_edits {m : Model} (h : m.Distinct) (edits : List Edit) :
    (edits.foldl Edit.apply m).Distinct := by
  induction edits generalizing m with
  | nil => exact h
  | cons edit edits ih => exact ih (edit.distinct h)

/-- Models that are built by hand, filtered or read have no relation and no package twice. Adding a
relation tells whether it was new, and changes nothing if it was not. A text has the relations that
its lines state, each at its first occurrence, and every package that its entities name. -/
theorem models_distinct :
    (∀ edits : List Edit, (edits.foldl Edit.apply Model.empty).Distinct) ∧
    (∀ (m : Model) (r : Relation), ((m.addRelation r).2 = true ↔ r ∉ m.relations) ∧
      (r ∈ m.relations → (m.addRelation r).1 = m)) ∧
    ∀ text : String, (parse text).Distinct ∧
      (parse text).relations = (Session.start.recognised (lines text.toList)).eraseDups ∧
      ∀ k, ∀ x ∈ (parse text).packaged k, ∀ p ∈ x.2, p ∈ (parse text).packages := by
  refine ⟨distinct_edits distinct_empty, fun m r => ⟨m.addRelation_snd r, Model.addRelation_of_mem⟩,
    fun text => ⟨distinct_parse text, ?_, ?_⟩⟩
  · have hstart : Session.start.model.relations = ([] : List Relation).eraseDups := rfl
    exact Session.relations_run hstart _
  · have hstart : Session.start.model.Listed Session.start.package :=
      ⟨fun _ hp => (nomatch hp), fun k x hx => by cases k <;> contradiction⟩
    exact (Session.listed_run hstart _).entities

/-- A relation that is stated twice is kept once, also when it is stated behind another. -/
example : (parse "A --> B\nB <|-- C\nA --> B\n").relations =
    [⟨"A", "B", .association⟩, ⟨"B", "C", .inheritance⟩] := by decide

end Markup

end ClassDiagram
