import ClassDiagram.Proofs.Flatten
import Mathlib.Data.List.Forall2

/-! What kind of field an attribute becomes. The base of its type decides between enumeration,
relation and primitive, in this order; whether a relation is embedded is a matter of the class at
whose level the attribute stands, which need not be the class that is converted. -/

namespace ClassDiagram

variable {h : Heuristics} {m : Model} {owner target : String}

namespace Model

/-- A composition joins two names, whichever of them it starts at. -/
def HasComposition (m : Model) (a b : String) : Prop :=
  ∃ r ∈ m.relations, r.kind = .composition ∧
    ((r.source = a ∧ r.target = b) ∨ (r.source = b ∧ r.target = a))

theorem composes_iff_hasComposition (m : Model) (a b : String) :
    m.composes a b = true ↔ m.HasComposition a b := by
  simp [composes, HasComposition, Relation.joins]

theorem relationSchema_embedded_iff (m : Model) (owner target : String) (many : Bool) :
    (m.relationSchema owner target many).embedded = some true ↔ m.HasComposition owner target := by
  rw [relationSchema, ← composes_iff_hasComposition]
  split <;> simp_all [RelationSchema.embed, RelationSchema.reference]

theorem relationSchema_onDelete_iff (m : Model) (owner target : String) (many : Bool) :
    (m.relationSchema owner target many).onDelete = .cascade ↔ m.HasComposition owner target := by
  rw [relationSchema, ← composes_iff_hasComposition]
  split <;> simp_all [RelationSchema.embed, RelationSchema.reference]

theorem relationSchema_kind_iff (m : Model) (owner target : String) (many : Bool) :
    (m.relationSchema owner target many).kind = .oneToMany ↔ many = true := by
  rw [relationSchema]
  split <;> cases many <;> simp [RelationSchema.embed, RelationSchema.reference]

/-- The attributes that become the fields of a class, each with the class of the walk at whose level
it stands. -/
def sources (m : Model) (c : Class) (n : ℕ) : List (Class × Attribute) :=
  (m.walkTo c n).reverse.flatMap fun w => (m.levelAttributes w).map (w, ·)

end Model

/-- The relation of a field to the classes of a model. -/
structure RelatesTo (m : Model) (owner : String) (spec : TypeSpec) (r : RelationSchema) : Prop where
  cascade_iff : r.onDelete = .cascade ↔ r.embedded = some true
  embedded_iff : r.embedded = some true ↔ m.HasComposition owner spec.base
  kind_iff : r.kind = .oneToMany ↔ spec.many = true

/-- What follows from the name of an attribute and from its cardinality, whatever kind of field it
becomes. -/
structure Shown (h : Heuristics) (name : String) (spec : TypeSpec) (f : AttributeSchema) : Prop where
  name : f.name = toCamel name
  edit : f.edit = if spec.optional then some ⟨true⟩ else none
  detail : f.view.detail = ⟨h.groupFor f.name,
    h.componentFor f.type f.enumValues.isSome f.relation.isSome⟩
  list : f.view.list = some true ↔ f.name ∈ h.listNames
  search : f.search = some true ↔ f.name ∈ h.searchNames
  externalKey : f.externalKey = some true ↔ f.name ∈ h.externalKeyNames

/-- The field that an attribute of some name and type becomes at the level of a class. -/
structure Classified (h : Heuristics) (m : Model) (owner name : String) (spec : TypeSpec)
    (f : AttributeSchema) : Prop extends Shown h name spec f where
  apart : ¬ (f.enumValues.isSome ∧ f.relation.isSome)
  enum_iff : f.enumValues.isSome ↔ spec.base ∈ m.enums.map (·.name)
  enum : ∀ values ∈ f.enumValues, f.type = "enum" ∧
    ∃ e, m.lastEnum? spec.base = some e ∧ values = e.values
  relation_iff : f.relation.isSome ↔
    spec.base ∈ m.classes.map (·.name) ∧ spec.base ∉ m.enums.map (·.name)
  relation : ∀ r ∈ f.relation, f.type = spec.base ∧ RelatesTo m owner spec r
  primitive : spec.base ∉ m.enums.map (·.name) → spec.base ∉ m.classes.map (·.name) →
    f.type = (h.primitive? spec.base).getD h.defaultPrimitive

theorem relatesTo_relationSchema (m : Model) (owner : String) (spec : TypeSpec) :
    RelatesTo m owner spec (m.relationSchema owner spec.base spec.many) where
  cascade_iff := (m.relationSchema_onDelete_iff owner spec.base spec.many).trans
    (m.relationSchema_embedded_iff owner spec.base spec.many).symm
  embedded_iff := m.relationSchema_embedded_iff owner spec.base spec.many
  kind_iff := m.relationSchema_kind_iff owner spec.base spec.many

theorem flag_eq_some_iff (b : Bool) : flag b = some true ↔ b = true := by
  cases b <;> decide

namespace Converter

variable {a : Attribute} {spec : TypeSpec} {f : AttributeSchema}

theorem shown_attributeSchema (h : Heuristics) (m : Model) (owner : String) (a : Attribute) :
    Shown h a.name (TypeSpec.parse a.type) ((ofModel h m).attributeSchema owner a) where
  name := rfl
  edit := rfl
  detail := rfl
  list := (flag_eq_some_iff _).trans decide_eq_true_iff
  search := (flag_eq_some_iff _).trans decide_eq_true_iff
  externalKey := (flag_eq_some_iff _).trans decide_eq_true_iff

/-- An enumeration goes before a class of its name, and a class before a primitive. -/
theorem attributeSchema_cases (hspec : TypeSpec.parse a.type = spec)
    (hf : (ofModel h m).attributeSchema owner a = f) :
    (∃ e, m.lastEnum? spec.base = some e ∧ spec.base ∈ m.enums.map (·.name) ∧
      f.type = "enum" ∧ f.enumValues = some e.values ∧ f.relation = none) ∨
    (spec.base ∉ m.enums.map (·.name) ∧ f.enumValues = none ∧
      ((spec.base ∈ m.classes.map (·.name) ∧ f.type = spec.base ∧
        f.relation = some (m.relationSchema owner spec.base spec.many)) ∨
      (spec.base ∉ m.classes.map (·.name) ∧
        f.type = (h.primitive? spec.base).getD h.defaultPrimitive ∧ f.relation = none))) := by
  have henums : (ofModel h m).index.enums.find? spec.base = m.lastEnum? spec.base :=
    Index.enums_find? m spec.base
  have hclasses : (ofModel h m).index.classes.find? spec.base = m.lastClass? spec.base :=
    Index.classes_find? m spec.base
  have hmodel : (ofModel h m).model = m ∧ (ofModel h m).heuristics = h := ⟨rfl, rfl⟩
  rw [← m.lastEnum?_isSome, ← m.lastClass?_isSome, ← hf]
  cases he : m.lastEnum? spec.base with
  | some e => exact .inl ⟨e, rfl, rfl, by simp [attributeSchema, hspec, henums, he]⟩
  | none =>
    refine .inr ?_
    cases hc : m.lastClass? spec.base <;>
      simp [attributeSchema, hspec, henums, hclasses, hmodel, he, hc]

theorem classified_attributeSchema (h : Heuristics) (m : Model) (owner : String) (a : Attribute) :
    Classified h m owner a.name (TypeSpec.parse a.type)
      ((ofModel h m).attributeSchema owner a) := by
  have hshown := shown_attributeSchema h m owner a
  generalize hspec : TypeSpec.parse a.type = spec at hshown ⊢
  generalize hf : (ofModel h m).attributeSchema owner a = f at hshown ⊢
  rcases attributeSchema_cases hspec hf with
    ⟨e, he, hmem, htype, hvalues, hrelation⟩ | ⟨hnot, hvalues, ⟨hmem, htype, hrelation⟩ |
      ⟨hmem, htype, hrelation⟩⟩
  · exact
      { hshown with
        apart := by simp [hrelation]
        enum_iff := by simp only [hvalues, Option.isSome_some, hmem]
        enum := by simp [hvalues, htype, he]
        relation_iff := by simp [hrelation, List.mem_map.1 hmem]
        relation := by simp [hrelation]
        primitive := fun hnot => absurd hmem hnot }
  · exact
      { hshown with
        apart := by simp [hvalues]
        enum_iff := by simp only [hvalues, Option.isSome_none, Bool.false_eq_true, hnot]
        enum := by simp [hvalues]
        relation_iff := by
          simp only [hrelation, Option.isSome_some, hmem, hnot, not_false_eq_true, and_self]
        relation := fun r hr => by
          obtain rfl := Option.some.inj (hrelation.symm.trans hr)
          exact ⟨htype, relatesTo_relationSchema m owner _⟩
        primitive := fun _ hmem' => absurd hmem hmem' }
  · exact
      { hshown with
        apart := by simp [hvalues]
        enum_iff := by simp only [hvalues, Option.isSome_none, Bool.false_eq_true, hnot]
        enum := by simp [hvalues]
        relation_iff := by
          simp only [hrelation, Option.isSome_none, Bool.false_eq_true, hmem, false_and]
        relation := by simp [hrelation]
        primitive := fun _ _ => htype }

/--
In the schema of a class each field is what its attribute makes it at the level where it stands: with
the values of an enumeration, or else related to a class, or else of a primitive type.
-/
theorem convertClass_classified {c : Class} {s : ClassSchema}
    (hs : (ofModel h m).convertClass c = .ok s) :
    ∃ n, (∀ k, (m.walk c k).isSome ↔ k < n) ∧
      List.Forall₂ (fun source f => Classified h m source.1.name source.2.name
        (TypeSpec.parse source.2.type) f) (m.sources c n) s.attributes := by
  obtain ⟨n, hwalk, hfields, -⟩ := convertClass_fields hs
  have hmap : s.attributes =
      (m.sources c n).map fun source => (ofModel h m).attributeSchema source.1.name source.2 := by
    rw [hfields, Model.sources, List.map_flatMap]
    simp [List.map_map, Function.comp_def]
  refine ⟨n, hwalk, ?_⟩
  rw [hmap, List.forall₂_map_right_iff, List.forall₂_same]
  exact fun source _ => classified_attributeSchema h m source.1.name source.2

/-- `Figlio` below `Padre`, which has a part and an interface; of the two enumerations of one name
the last counts. -/
def inheritedPart : Model :=
  { classes := [⟨"Figlio", "Figlio", none, [⟨"parti", "Parte[0..*]", none⟩], []⟩,
      ⟨"Padre", "Padre", none, [⟨"parte", "Parte", none⟩], []⟩, ⟨"Parte", "Parte", none, [], []⟩]
    interfaces := [⟨"I", none, [⟨"stato", "Stato", none⟩]⟩]
    enums := [⟨"Stato", none, ["A"]⟩, ⟨"Stato", none, ["B"]⟩]
    relations := [⟨"Figlio", "Padre", .inheritance⟩, ⟨"Parte", "Padre", .composition⟩,
      ⟨"I", "Padre", .implementation⟩]
    packages := [] }

theorem convertClass_classified_inheritedPart :
    ∃ s, (ofModel Heuristics.standard inheritedPart).convertClass
        ⟨"Figlio", "Figlio", none, [⟨"parti", "Parte[0..*]", none⟩], []⟩ = .ok s ∧
      s.attributes.map (fun f => (f.name, f.enumValues, f.relation.map (·.isEmbedded))) =
        [("stato", some ["B"], none), ("parte", none, some true), ("parti", none, some false)] ∧
      ∃ n, List.Forall₂ (fun source f => Classified Heuristics.standard inheritedPart
          source.1.name source.2.name (TypeSpec.parse source.2.type) f)
        (inheritedPart.sources
          ⟨"Figlio", "Figlio", none, [⟨"parti", "Parte[0..*]", none⟩], []⟩ n) s.attributes := by
  have hok : (((ofModel Heuristics.standard inheritedPart).convertClass
      ⟨"Figlio", "Figlio", none, [⟨"parti", "Parte[0..*]", none⟩], []⟩).toOption.map fun s =>
        s.attributes.map fun f => (f.name, f.enumValues, f.relation.map (·.isEmbedded))) =
      some [("stato", some ["B"], none), ("parte", none, some true),
        ("parti", none, some false)] := by
    decide +kernel
  cases hs : (ofModel Heuristics.standard inheritedPart).convertClass
      ⟨"Figlio", "Figlio", none, [⟨"parti", "Parte[0..*]", none⟩], []⟩ with
  | error e => rw [hs] at hok; cases hok
  | ok s =>
    rw [hs] at hok
    obtain ⟨n, -, hfields⟩ := convertClass_classified hs
    exact ⟨s, rfl, Option.some.inj hok, n, hfields⟩

end Converter

end ClassDiagram
