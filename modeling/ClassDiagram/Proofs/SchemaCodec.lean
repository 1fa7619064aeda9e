import ClassDiagram.Proofs.Codec
/-!
The JSON text of schemas in either layout is read back as what was written: one schema as one, and
a list of them, even the empty one, as a list.
-/

namespace ClassDiagram
open CommandLine Json

theorem Permissions.lawful : Lawful 1 Permissions.toJson Permissions.ofJson? := by
  refine lawful_record (fun _ => rfl) (by decide) ?_ ?_
  · intro p
    simp [lawful_bool.textual_le]
  · intro p f _ hfind
    simp [Fields.required_of_find? lawful_bool (hfind "create"),
      Fields.required_of_find? lawful_bool (hfind "read"),
      Fields.required_of_find? lawful_bool (hfind "update"),
      Fields.required_of_find? lawful_bool (hfind "delete")]

theorem Cardinality.lawful : Lawful 0 Cardinality.toJson Cardinality.ofJson? :=
  lawful_choice fun c => by cases c <;> rfl

theorem DeletePolicy.lawful : Lawful 0 DeletePolicy.toJson DeletePolicy.ofJson? :=
  lawful_choice fun p => by cases p <;> rfl

theorem RelationSchema.lawful : Lawful 1 RelationSchema.toJson RelationSchema.ofJson? := by
  refine lawful_record (fun _ => rfl) (by decide) ?_ ?_
  · intro r
    simp [Cardinality.lawful.textual_le, DeletePolicy.lawful.textual_le, lawful_bool.textual_map]
  · intro r f _ hfind
    simp [Fields.required_of_find? Cardinality.lawful (hfind "kind"),
      Fields.required_of_find? DeletePolicy.lawful (hfind "onDelete"),
      Fields.optional_of_find? lawful_bool (hfind "embedded")]

theorem EditSchema.lawful : Lawful 1 EditSchema.toJson EditSchema.ofJson? := by
  refine lawful_record (fun _ => rfl) (by decide) ?_ ?_
  · intro e
    simp [lawful_bool.textual_le]
  · intro e f _ hfind
    simp [Fields.required_of_find? lawful_bool (hfind "optional")]

theorem DetailView.lawful : Lawful 1 DetailView.toJson DetailView.ofJson? := by
  refine lawful_record (fun _ => rfl) (by decide) ?_ ?_
  · intro d
    simp [lawful_text.textual_le]
  · intro d f _ hfind
    simp [Fields.required_of_find? lawful_text (hfind "group"),
      Fields.required_of_find? lawful_text (hfind "component")]

theorem ViewSchema.lawful : Lawful 2 ViewSchema.toJson ViewSchema.ofJson? := by
  refine lawful_record (fun _ => rfl) (by decide) ?_ ?_
  · intro w
    simp [lawful_bool.textual_map, DetailView.lawful.textual_le]
  · intro w f _ hfind
    simp [Fields.optional_of_find? lawful_bool (hfind "list"),
      Fields.required_of_find? DetailView.lawful (hfind "detail")]

theorem AttributeSchema.lawful : Lawful 3 AttributeSchema.toJson AttributeSchema.ofJson? := by
  refine lawful_record (fun _ => rfl) (by decide) ?_ ?_
  · intro a
    simp [lawful_text.textual_le, lawful_text.list.textual_map, RelationSchema.lawful.textual_map,
      EditSchema.lawful.textual_map, ViewSchema.lawful.textual_le, lawful_bool.textual_map]
  · intro a f _ hfind
    simp [Fields.required_of_find? lawful_text (hfind "name"),
      Fields.required_of_find? lawful_text (hfind "type"),
      Fields.optional_of_find? lawful_text.list (hfind "enum"),
      Fields.optional_of_find? RelationSchema.lawful (hfind "relation"),
      Fields.optional_of_find? EditSchema.lawful (hfind "edit"),
      Fields.required_of_find? ViewSchema.lawful (hfind "view"),
      Fields.optional_of_find? lawful_bool (hfind "search"),
      Fields.optional_of_find? lawful_bool (hfind "externalKey")]

theorem ClassSchema.lawful : Lawful 5 ClassSchema.toJson ClassSchema.ofJson? := by
  refine lawful_record (fun _ => rfl) (by decide) ?_ ?_
  · intro s
    simp [lawful_text.textual_le, AttributeSchema.lawful.list.textual_le,
      Permissions.lawful.textual_le, lawful_text.textual_map]
  · intro s f _ hfind
    simp [Fields.required_of_find? lawful_text (hfind "name"),
      Fields.required_of_find? lawful_text (hfind "icon"),
      Fields.required_of_find? lawful_text (hfind "title"),
      Fields.required_of_find? AttributeSchema.lawful.list (hfind "attributes"),
      Fields.orElse_of_find? Permissions.lawful (hfind "permissions"),
      Fields.optional_of_find? lawful_text (hfind "derivesFrom")]

/--
No list of schemas is read as one schema, although a schema may be an array: the first field of a
schema is a name, and the first element of the list is none.
-/
theorem ClassSchema.ofJson?_list (schemas : List ClassSchema) :
    ofJson? (Json.list toJson schemas) = none := by
  rw [ofJson?, Json.list, fields?]
  split_ifs with hlength
  · cases schemas with
    | nil => rfl
    | cons schema schemas => rfl
  · rfl

namespace SchemaOutput

theorem textual (o : SchemaOutput) : Textual 6 o.toJson := by
  cases o with
  | one schema => exact ClassSchema.lawful.textual_le (by decide) schema
  | all schemas => exact ClassSchema.lawful.list.textual schemas

theorem ofJson?_toJson (o : SchemaOutput) : ofJson? o.toJson = some o := by
  rw [ofJson?, if_pos (o.textual.isPlain (by decide))]
  cases o with
  | one schema =>
    have hread : ClassSchema.ofJson? (one schema).toJson = some schema :=
      ClassSchema.lawful.read_write schema
    rw [hread]
  | all schemas =>
    have hone : ClassSchema.ofJson? (all schemas).toJson = none := ClassSchema.ofJson?_list schemas
    have hread : list? ClassSchema.ofJson? (all schemas).toJson = some schemas :=
      ClassSchema.lawful.list.read_write schemas
    rw [hone, hread, Option.map_some]

/-- Both texts of one schema or of a list are read back as what was written. -/
theorem jsonText_unambiguous (o : SchemaOutput) (compact : Bool) :
    (Json.ofString? (jsonText compact o.toJson)).bind ofJson? = some o := by
  rw [o.textual.ofString?_jsonText, Option.bind_some, ofJson?_toJson]

end SchemaOutput

end ClassDiagram
