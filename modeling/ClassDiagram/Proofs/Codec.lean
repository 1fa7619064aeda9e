import ClassDiagram.CommandLine.Report
import ClassDiagram.Proofs.JsonText
/-!
Writers and readers of values that undo each other. A record is read back if its fields are: its
keys differ, a field that is missing is one that was left out, and `null` is no value of a field.
-/

namespace ClassDiagram.Json

open CommandLine

variable {α : Type} {n : Nat} {write : α → Json} {read : Json → Option α}

/-! ### The fields of a record -/

/-- The members of a record that have a value. -/
def present : List (String × Option Json) → List (String × Json)
  | [] => []
  | (_, none) :: ms => present ms
  | (key, some v) :: ms => (key, v) :: present ms

theorem record_eq (members : List (String × Option Json)) :
    record members = object ((present members).map fun m => (some m.1, m.2)) := by
  rw [record]
  congr 1
  induction members with
  | nil => rfl
  | cons m ms ih =>
    obtain ⟨key, _ | v⟩ := m
    · exact ih
    · exact congrArg _ ih

theorem keys_present (members : List (String × Option Json)) :
    ((present members).map Prod.fst).Sublist (members.map Prod.fst) := by
  induction members with
  | nil => exact List.Sublist.refl _
  | cons m ms ih =>
    obtain ⟨key, _ | v⟩ := m
    · exact ih.cons key
    · exact ih.cons_cons key

theorem lookup_of_not_mem {β : Type} {key : String} {ms : List (String × β)}
    (h : key ∉ ms.map Prod.fst) : ms.lookup key = none := by
  rw [List.lookup_eq_none_iff]
  intro m hm
  simp only [bne_iff_ne]
  rintro rfl
  exact h (List.mem_map_of_mem hm)

theorem lookup_present {members : List (String × Option Json)}
    (hnodup : (members.map Prod.fst).Nodup) (key : String) :
    (present members).lookup key = (members.lookup key).join := by
  induction members with
  | nil => rfl
  | cons m ms ih =>
    obtain ⟨hm, hms⟩ := List.nodup_cons.1 hnodup
    obtain ⟨k, o⟩ := m
    by_cases heq : key = k
    · subst heq
      cases o with
      | none =>
        rw [present, ih hms, lookup_of_not_mem hm, List.lookup_cons_self]
        rfl
      | some v => rw [present, List.lookup_cons_self, List.lookup_cons_self, Option.join_some]
    · have hne : (key == k) = false := beq_false_of_ne heq
      cases o with
      | none => rw [present, ih hms, List.lookup_cons, hne]
      | some v => rw [present, List.lookup_cons, List.lookup_cons, hne, ih hms]

theorem knownMembers_map {keys : List String} {ms : List (String × Json)}
    (hkeys : ms.map Prod.fst ⊆ keys) (hnodup : (ms.map Prod.fst).Nodup) :
    knownMembers keys (ms.map fun m => (some m.1, m.2)) = some ms := by
  induction ms with
  | nil => rfl
  | cons m ms ih =>
    obtain ⟨hm, hms⟩ := List.cons_subset.1 hkeys
    obtain ⟨hnot, hnodup⟩ := List.nodup_cons.1 hnodup
    simp [knownMembers, ih hms hnodup, hm, lookup_of_not_mem hnot]

/-- A record has the fields that were written, by name, and no other. -/
theorem fields?_record {members : List (String × Option Json)}
    (hnodup : (members.map Prod.fst).Nodup) :
    (record members).fields? (members.map Prod.fst) = some ⟨true, present members⟩ := by
  have hkeys := keys_present members
  rw [record_eq, fields?, knownMembers_map hkeys.subset (hnodup.sublist hkeys), Option.map_some]

/-- Whether the value of a field, if it has one, is textual. -/
def TextualField (n : Nat) (o : Option Json) : Prop := ∀ v ∈ o, Textual n v

@[simp] theorem textualField_some {v : Json} : TextualField n (some v) ↔ Textual n v := by
  simp [TextualField]

/-! ### Codecs -/

/--
What is written is read back, also as the value of a field, and is at most `n` arrays and objects
deep.
-/
structure Lawful (n : Nat) (write : α → Json) (read : Json → Option α) : Prop where
  read_write : ∀ a, read (write a) = some a
  ne_null : ∀ a, write a ≠ null
  textual : ∀ a, Textual n (write a)

theorem lawful_text : Lawful 0 ofText text? where
  read_write _ := rfl
  ne_null _ := Json.noConfusion
  textual := Textual.text

theorem lawful_bool : Lawful 0 bool bool? where
  read_write _ := rfl
  ne_null _ := Json.noConfusion
  textual := Textual.bool

/-- One of some names, if each stands for its own value. -/
theorem lawful_choice {name : α → String} {table : List (String × α)}
    (h : ∀ a, table.lookup (name a) = some a) :
    Lawful 0 (fun a => ofText (name a)) (choice? table) where
  read_write := h
  ne_null _ := Json.noConfusion
  textual a := Textual.text (name a)

theorem mapM_write (h : ∀ a, read (write a) = some a) (items : List α) :
    (items.map write).mapM read = some items := by
  induction items with
  | nil => rfl
  | cons a items ih => simp [List.mapM_cons, h a, ih]

theorem Lawful.list (h : Lawful n write read) : Lawful (n + 1) (list write) (list? read) where
  read_write := mapM_write h.read_write
  ne_null _ := Json.noConfusion
  textual items := .array fun v hv => by
    obtain ⟨a, -, rfl⟩ := List.mem_map.1 hv
    exact h.textual a

theorem Lawful.textual_le {k : Nat} (h : Lawful n write read) (hnk : n ≤ k) (a : α) :
    Textual k (write a) :=
  (h.textual a).mono hnk

theorem Lawful.textual_orNull {k : Nat} (h : Lawful n write read) (hnk : n ≤ k) (o : Option α) :
    Textual k (Json.orNull write o) := by
  cases o with
  | none => exact .null
  | some a => exact h.textual_le hnk a

theorem Lawful.textual_map {k : Nat} (h : Lawful n write read) (hnk : n ≤ k) (o : Option α) :
    TextualField k (o.map write) := by
  intro v hv
  obtain ⟨a, -, rfl⟩ := Option.map_eq_some_iff.1 hv
  exact h.textual_le hnk a

theorem Lawful.orNull?_write (h : Lawful n write read) (a : α) :
    orNull? read (write a) = some (some a) := by
  rw [orNull?, h.read_write, Option.map_some]
  exact h.ne_null a

theorem Lawful.orNull (h : Lawful n write read) (o : Option α) :
    orNull? read (orNull write o) = some o := by
  cases o with
  | none => rfl
  | some a => exact h.orNull?_write a

namespace Fields

variable {f : Fields} {key : String} {a : α} {o : Option α}

theorem required_of_find? (h : Lawful n write read) (hfind : f.find? key = some (write a)) :
    f.required key read = some a := by
  rw [required, hfind, Option.bind_some, h.read_write]

theorem orElse_of_find? (h : Lawful n write read) (hfind : f.find? key = some (write a))
    (default : α) : f.orElse key read default = some a := by
  simp only [orElse, hfind, h.read_write]

/-- A field that was left out is missing, and one that was written is there. -/
theorem optional_of_find? (h : Lawful n write read) (hfind : f.find? key = o.map write) :
    f.optional key read = some o := by
  cases o with
  | none => simp only [optional, orElse, hfind, Option.map_none]
  | some a => simp only [optional, orElse, hfind, Option.map_some, h.orNull?_write]

theorem nullable_of_find? (h : Lawful n write read) (hnamed : f.named = true)
    (hfind : f.find? key = some (Json.orNull write o)) : f.nullable key read = some o := by
  simp only [nullable, hnamed, if_true, optional, orElse, hfind, h.orNull]

end Fields

/--
A record whose keys are known and differ is read back if its fields are, given what each key finds.
-/
theorem lawful_record {keys : List String} {members : α → List (String × Option Json)}
    {body : Fields → Option α} (hkeys : ∀ a, (members a).map Prod.fst = keys)
    (hnodup : keys.Nodup) (htextual : ∀ a, ∀ m ∈ members a, TextualField n m.2)
    (hbody : ∀ a f, f.named = true → (∀ key, f.find? key = ((members a).lookup key).join) →
      body f = some a) :
    Lawful (n + 1) (fun a => record (members a)) (fun v => (v.fields? keys).bind body) where
  read_write a := by
    have hmembers : ((members a).map Prod.fst).Nodup := hkeys a ▸ hnodup
    have hfields := fields?_record hmembers
    rw [hkeys] at hfields
    simp only [hfields, Option.bind_some]
    exact hbody a _ rfl (lookup_present hmembers)
  ne_null a := by
    rw [record]
    exact Json.noConfusion
  textual a := by
    rw [record]
    refine .object ?_ ?_
    all_goals
      intro m hm
      obtain ⟨⟨key, o⟩, hmem, hmap⟩ := List.mem_filterMap.1 hm
      obtain ⟨v, hv, rfl⟩ := Option.map_eq_some_iff.1 hmap
    · rfl
    · exact htextual a _ hmem v hv

/-! ### Texts -/

theorem Textual.ofString?_jsonText {v : Json} (h : Textual n v) (compact : Bool) :
    ofString? (jsonText compact v) = some v := by
  cases compact with
  | true => exact h.ofString?_compactText
  | false => exact h.ofString?_prettyText

theorem Lawful.ofString?_jsonText (h : Lawful n write read) (a : α) (compact : Bool) :
    (ofString? (jsonText compact (write a))).bind read = some a := by
  rw [(h.textual a).ofString?_jsonText, Option.bind_some, h.read_write]

end ClassDiagram.Json
