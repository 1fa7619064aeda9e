import ClassDiagram.Proofs.Codec
/-!
The JSON text of a model in either layout is read back as that model. Every record below is read
back for the same reason: its fields are.
-/

namespace ClassDiagram
open CommandLine Json

theorem RelationKind.lawful : Lawful 0 RelationKind.toJson RelationKind.ofJson? :=
  lawful_choice fun k => by cases k <;> rfl

theorem Relation.lawful : Lawful 1 Relation.toJson Relation.ofJson? := by
  refine lawful_record (fun _ => rfl) (by decide) ?_ ?_
  · intro r
    simp [lawful_text.textual_le, RelationKind.lawful.textual_le]
  · intro r f _ hfind
    simp [Fields.required_of_find? lawful_text (hfind "from"),
      Fields.required_of_find? lawful_text (hfind "to"),
      Fields.required_of_find? RelationKind.lawful (hfind "type")]

theorem Attribute.lawful : Lawful 1 Attribute.toJson Attribute.ofJson? := by
  refine lawful_record (fun _ => rfl) (by decide) ?_ ?_
  · intro a
    simp [lawful_text.textual_le, lawful_text.textual_map]
  · intro a f _ hfind
    simp [Fields.required_of_find? lawful_text (hfind "name"),
      Fields.required_of_find? lawful_text (hfind "type"),
      Fields.optional_of_find? lawful_text (hfind "defaultValue")]

theorem Method.lawful : Lawful 1 Method.toJson Method.ofJson? := by
  refine lawful_record (fun _ => rfl) (by decide) ?_ ?_
  · intro g
    simp [lawful_text.textual_le]
  · intro g f _ hfind
    simp [Fields.required_of_find? lawful_text (hfind "name"),
      Fields.required_of_find? lawful_text (hfind "returnType")]

theorem Class.lawful : Lawful 3 Class.toJson Class.ofJson? := by
  refine lawful_record (fun _ => rfl) (by decide) ?_ ?_
  · intro c
    simp [lawful_text.textual_le, lawful_text.textual_orNull, Attribute.lawful.list.textual_le,
      Method.lawful.list.textual_le]
  · intro c f hnamed hfind
    simp [Fields.required_of_find? lawful_text (hfind "name"),
      Fields.required_of_find? lawful_text (hfind "displayName"),
      Fields.nullable_of_find? lawful_text hnamed (hfind "package"),
      Fields.required_of_find? Attribute.lawful.list (hfind "attributes"),
      Fields.required_of_find? Method.lawful.list (hfind "methods")]

theorem Interface.lawful : Lawful 3 Interface.toJson Interface.ofJson? := by
  refine lawful_record (fun _ => rfl) (by decide) ?_ ?_
  · intro i
    simp [lawful_text.textual_le, lawful_text.textual_orNull, Attribute.lawful.list.textual_le]
  · intro i f hnamed hfind
    simp [Fields.required_of_find? lawful_text (hfind "name"),
      Fields.nullable_of_find? lawful_text hnamed (hfind "package"),
      Fields.required_of_find? Attribute.lawful.list (hfind "attributes")]

theorem Enumeration.lawful : Lawful 2 Enumeration.toJson Enumeration.ofJson? := by
  refine lawful_record (fun _ => rfl) (by decide) ?_ ?_
  · intro e
    simp [lawful_text.textual_le, lawful_text.textual_orNull, lawful_text.list.textual_le]
  · intro e f hnamed hfind
    simp [Fields.required_of_find? lawful_text (hfind "name"),
      Fields.nullable_of_find? lawful_text hnamed (hfind "package"),
      Fields.required_of_find? lawful_text.list (hfind "values")]

theorem Model.lawful : Lawful 5 Model.toJson Model.ofJson? := by
  refine lawful_record (fun _ => rfl) (by decide) ?_ ?_
  · intro m
    simp [Class.lawful.list.textual_le, Interface.lawful.list.textual_le,
      Enumeration.lawful.list.textual_le, Relation.lawful.list.textual_le,
      lawful_text.list.textual_le]
  · intro m f _ hfind
    simp [Fields.required_of_find? Class.lawful.list (hfind "classes"),
      Fields.required_of_find? Interface.lawful.list (hfind "interfaces"),
      Fields.required_of_find? Enumeration.lawful.list (hfind "enums"),
      Fields.required_of_find? Relation.lawful.list (hfind "relations"),
      Fields.required_of_find? lawful_text.list (hfind "packages")]

/-- The JSON of a model loses nothing: both of its texts are read back as the model. -/
theorem Model.jsonText_lossless (m : Model) :
    (∀ compact, (Json.ofString? (jsonText compact m.toJson)).bind ofJson? = some m) ∧
      Json.ofString? (jsonText true m.toJson) = Json.ofString? (jsonText false m.toJson) := by
  have htextual : Textual 5 m.toJson := lawful.textual m
  constructor
  · exact lawful.ofString?_jsonText m
  · rw [htextual.ofString?_jsonText, htextual.ofString?_jsonText]

end ClassDiagram
