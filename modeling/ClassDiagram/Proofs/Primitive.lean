import ClassDiagram.Schema.Codec
import Mathlib.Data.List.Nodup
import Mathlib.Data.String.Basic
import Mathlib.Order.Bounds.Basic

/-! The primitives of types. A table names types in any case, and of the names that are the same in
lower case the last one in order decides. The table itself comes from a JSON text, in which the last
value of a name counts, or it is the standard one. -/

namespace ClassDiagram

namespace NameMap

variable {α : Type} {m : NameMap α} {e : String × α}

theorem find?_of_mem (he : e ∈ m.entries) : m.find? e.1 = some e.2 := by
  obtain ⟨f, hf⟩ : ∃ f, m.entries.find? (·.1 = e.1) = some f :=
    Option.isSome_iff_exists.1 (List.find?_isSome.2 ⟨e, he, by simp⟩)
  have hname : f.1 = e.1 := by simpa using List.find?_some hf
  have hsame : f = e :=
    List.inj_on_of_nodup_map m.nodup_names (List.mem_of_find?_eq_some hf) he hname
  rw [find?, hf, hsame, Option.map_some]

/-- The last of some entries in rising order has the greatest name. -/
theorem isGreatest_of_getLast? {es : List (String × α)} (hs : es.Pairwise fun a b => a.1 < b.1)
    (h : es.getLast? = some e) : IsGreatest {k | k ∈ es.map Prod.fst} e.1 := by
  obtain ⟨before, rfl⟩ := List.getLast?_eq_some_iff.1 h
  refine ⟨by simp, ?_⟩
  intro k hk
  obtain ⟨a, ha, rfl⟩ := List.mem_map.1 hk
  rcases List.mem_append.1 ha with ha | ha
  · exact le_of_lt ((List.pairwise_append.1 hs).2.2 a ha e (List.mem_singleton_self e))
  · exact le_of_eq (congrArg Prod.fst (List.mem_singleton.1 ha))

/-- The map with other names for its entries, of which the last with a name counts. -/
theorem find?_renamed (m : NameMap α) (rename : String → String) (x : String) :
    (ofList (m.entries.map fun e => (rename e.1, e.2))).find? x =
      (m.entries.filter (rename ·.1 = x)).getLast?.map Prod.snd := by
  rw [find?_ofList, ← List.map_reverse, List.find?_map, List.getLast?_filter, Option.map_map]
  rfl

theorem exists_greatest_of_renamed {rename : String → String} {x : String} {v : α}
    (h : (ofList (m.entries.map fun e => (rename e.1, e.2))).find? x = some v) :
    ∃ k, IsGreatest {k | k ∈ m.names ∧ rename k = x} k ∧ m.find? k = some v := by
  rw [find?_renamed] at h
  obtain ⟨e, hlast, rfl⟩ := Option.map_eq_some_iff.1 h
  have hset : {k | k ∈ (m.entries.filter (rename ·.1 = x)).map Prod.fst} =
      {k | k ∈ m.names ∧ rename k = x} := by
    ext k
    simp [names]
  have hgreatest := isGreatest_of_getLast? (m.sorted.filter _) hlast
  rw [hset] at hgreatest
  have hmem := List.mem_of_mem_filter (List.mem_of_getLast? hlast)
  exact ⟨e.1, hgreatest, find?_of_mem hmem⟩

theorem find?_renamed_eq_none_iff (m : NameMap α) (rename : String → String) {x : String} :
    (ofList (m.entries.map fun e => (rename e.1, e.2))).find? x = none ↔
      ∀ k ∈ m.names, rename k ≠ x := by
  simp [find?_renamed, names]

/-- Of the names that become one, the greatest decides. -/
theorem find?_renamed_eq_some_iff (m : NameMap α) (rename : String → String) {x : String} {v : α} :
    (ofList (m.entries.map fun e => (rename e.1, e.2))).find? x = some v ↔
      ∃ k, IsGreatest {k | k ∈ m.names ∧ rename k = x} k ∧ m.find? k = some v := by
  refine ⟨exists_greatest_of_renamed, ?_⟩
  rintro ⟨k, hk, hv⟩
  have hsome := mt (m.find?_renamed_eq_none_iff rename).1 fun hnone => hnone k hk.1.1 hk.1.2
  obtain ⟨w, hw⟩ := Option.ne_none_iff_exists'.1 hsome
  obtain ⟨k', hk', hv'⟩ := exists_greatest_of_renamed hw
  rw [hk.unique hk', hv'] at hv
  rw [hw, hv]

end NameMap

/-! ### The table that is read -/

namespace Json

variable {keys : List String} {key : String} {i : ℕ}

/-- The value of a field in a record: an object has it under a key, an array at a place. -/
def field (key : String) (i : ℕ) : Json → Option Json
  | object members => members.lookup (some key)
  | array items => items[i]?
  | _ => none

theorem lookup_knownMembers (hkey : key ∈ keys) {members : List (Literal × Json)}
    {given : List (String × Json)} (h : knownMembers keys members = some given) :
    given.lookup key = members.lookup (some key) := by
  induction members generalizing given with
  | nil =>
    obtain rfl := Option.some.inj h
    rfl
  | cons m ms ih =>
    obtain ⟨_ | name, v⟩ := m
    · contradiction
    · obtain ⟨rest, hrest, h⟩ := Option.bind_eq_some_iff.1 h
      by_cases hname : name ∈ keys
      · rw [if_pos hname] at h
        split at h
        · contradiction
        · obtain rfl := Option.some.inj h
          rw [List.lookup_cons, List.lookup_cons, ih hrest]
          rfl
      · rw [if_neg hname] at h
        obtain rfl := Option.some.inj h
        have hne : (some key == some name) = false := by
          rw [beq_eq_false_iff_ne]
          rintro ⟨⟩
          exact hname hkey
        rw [List.lookup_cons, hne, ih hrest]

theorem lookup_zip (hn : keys.Nodup) (hi : keys[i]? = some key) (items : List Json) :
    (keys.zip items).lookup key = items[i]? := by
  induction keys generalizing items i with
  | nil => simp at hi
  | cons k keys ih =>
    obtain ⟨hk, hn⟩ := List.nodup_cons.1 hn
    cases items with
    | nil => simp
    | cons v items =>
      rw [List.zip_cons_cons, List.lookup_cons]
      cases i with
      | zero =>
        obtain rfl : k = key := by simpa using hi
        simp
      | succ i =>
        have hi : keys[i]? = some key := by simpa using hi
        have hne : (key == k) = false := by
          rw [beq_eq_false_iff_ne]
          rintro rfl
          exact hk (List.mem_of_getElem? hi)
        rw [hne, ih hn hi, List.getElem?_cons_succ]

theorem find?_fields? (hn : keys.Nodup) (hi : keys[i]? = some key) {v : Json} {f : Fields}
    (h : v.fields? keys = some f) : f.find? key = v.field key i := by
  unfold fields? at h
  split at h
  · obtain ⟨given, hgiven, rfl⟩ := Option.map_eq_some_iff.1 h
    exact lookup_knownMembers (List.mem_of_getElem? hi) hgiven
  · split at h
    · obtain rfl := Option.some.inj h
      exact lookup_zip hn hi _
    · contradiction
  · contradiction

theorem eq_ofText_of_text? {v : Json} {s : String} (h : text? v = some s) : v = ofText s := by
  cases v with
  | string t => rw [ofText, show t = some s from h]
  | _ => contradiction

theorem eq_of_member? {m : Literal × Json} {e : String × String} (h : member? text? m = some e) :
    m = (some e.1, ofText e.2) := by
  obtain ⟨key, hkey, h⟩ := Option.bind_eq_some_iff.1 h
  obtain ⟨value, hvalue, h⟩ := Option.bind_eq_some_iff.1 h
  obtain rfl := Option.some.inj h
  exact Prod.ext hkey (eq_ofText_of_text? hvalue)

theorem eq_of_mapM_member? {ms : List (Literal × Json)} {entries : List (String × String)}
    (h : ms.mapM (member? text?) = some entries) :
    ms = entries.map fun e => (some e.1, ofText e.2) := by
  induction ms generalizing entries with
  | nil =>
    obtain rfl := Option.some.inj h
    rfl
  | cons m ms ih =>
    rw [List.mapM_cons] at h
    obtain ⟨e, he, h⟩ := Option.bind_eq_some_iff.1 h
    obtain ⟨es, hes, h⟩ := Option.bind_eq_some_iff.1 h
    obtain rfl := Option.some.inj h
    rw [List.map_cons, ← eq_of_member? he, ← ih hes]

/-- A map of texts is read from an object whose values are texts. -/
theorem exists_of_map?_text? {v : Json} {m : NameMap String} (h : map? text? v = some m) :
    ∃ entries : List (String × String), v = object (entries.map fun e => (some e.1, ofText e.2)) ∧
      m = NameMap.ofList entries := by
  cases v with
  | object members =>
    obtain ⟨entries, hentries, rfl⟩ := Option.map_eq_some_iff.1 h
    exact ⟨entries, congrArg object (eq_of_mapM_member? hentries), rfl⟩
  | _ => contradiction

end Json

namespace Heuristics

open Json Text

/-- What the value of a field says of the primitives: the standard table without a value, and of an
object the last value of each name. -/
inductive Tells : Option Json → NameMap String → Prop
  | standard : Tells none Heuristics.standard.primitives
  | given (entries : List (String × String)) (table : NameMap String)
    (last : ∀ name, table.find? name = ((entries.filter (·.1 = name)).map Prod.snd).getLast?) :
    Tells (some (object (entries.map fun e => (some e.1, ofText e.2)))) table

theorem tells_of_ofJson? {v : Json} {h : Heuristics} (hread : ofJson? v = some h) :
    Tells (v.field "primitives" 9) h.primitives := by
  obtain ⟨f, hf, hread⟩ := Option.bind_eq_some_iff.1 hread
  -- Nine fields stand in front of the table, and five behind it.
  iterate 9 obtain ⟨_, _, hread⟩ := Option.bind_eq_some_iff.1 hread
  obtain ⟨table, htable, hread⟩ := Option.bind_eq_some_iff.1 hread
  iterate 5 obtain ⟨_, _, hread⟩ := Option.bind_eq_some_iff.1 hread
  obtain rfl := Option.some.inj hread
  rw [← find?_fields? (by decide) rfl hf]
  unfold Fields.orElse at htable
  split at htable
  · next w hw =>
    obtain ⟨entries, rfl, rfl⟩ := exists_of_map?_text? htable
    rw [hw]
    refine .given entries _ fun name => ?_
    rw [NameMap.find?_ofList, List.getLast?_map, List.getLast?_filter]
  · next hw =>
    obtain rfl := Option.some.inj htable
    rw [hw]
    exact .standard

theorem primitive?_lowerPrimitives (h : Heuristics) (type : String) :
    h.lowerPrimitives.primitive? type =
      (NameMap.ofList (h.primitives.entries.map fun e =>
        (String.ofList (lower e.1.toList), e.2))).find? (String.ofList (lower type.toList)) := rfl

/-- In heuristics that are read from a text, a type stands for what the table of the text says of the
greatest name that is the same in lower case. -/
theorem primitive?_ofString? {text : String} {h : Heuristics} (hread : ofString? text = .ok h) :
    ∃ v table, Json.ofString? text = some v ∧ Tells (v.field "primitives" 9) table ∧ ∀ type,
      (∀ value, h.primitive? type = some value ↔
        ∃ key, IsGreatest {k | k ∈ table.names ∧ lower k.toList = lower type.toList} key ∧
          table.find? key = some value) ∧
      (h.primitive? type = none ↔ ∀ k ∈ table.names, lower k.toList ≠ lower type.toList) ∧
      ∀ other, lower other.toList = lower type.toList →
        h.primitive? other = h.primitive? type := by
  unfold ofString? at hread
  split at hread
  · contradiction
  next v hv =>
    split at hread
    · contradiction
    next given hgiven =>
      obtain rfl := Except.ok.inj hread
      refine ⟨v, given.primitives, hv, tells_of_ofJson? hgiven, fun type => ⟨fun value => ?_, ?_, ?_⟩⟩
      · rw [primitive?_lowerPrimitives,
          given.primitives.find?_renamed_eq_some_iff fun k => String.ofList (lower k.toList)]
        simp only [String.ofList_inj]
      · rw [primitive?_lowerPrimitives,
          given.primitives.find?_renamed_eq_none_iff fun k => String.ofList (lower k.toList)]
        simp only [ne_eq, String.ofList_inj]
      · intro other hsame
        rw [primitive?, primitive?, hsame]

/-- Two names for a type, the lesser of them behind the greater one and given twice. -/
def clash : String :=
  "\x7b\"icon\": \"box\", \"primitives\": \x7b\"INT\": \"a\", \"Int\": \"b\", \"INT\": \"c\"\x7d\x7d"

theorem primitive?_ofString?_clash : ∃ h, ofString? clash = .ok h ∧ h.primitive? "iNT" = some "b" ∧
    ∃ v table, Json.ofString? clash = some v ∧ Tells (v.field "primitives" 9) table ∧
      ∃ key, IsGreatest {k | k ∈ table.names ∧ lower k.toList = lower "iNT".toList} key ∧
        table.find? key = some "b" := by
  have hprimitive : (ofString? clash).toOption.bind (·.primitive? "iNT") = some "b" := by
    decide +kernel
  cases hread : ofString? clash with
  | error e => rw [hread] at hprimitive; cases hprimitive
  | ok h =>
    rw [hread] at hprimitive
    obtain ⟨v, table, hv, htable, htypes⟩ := primitive?_ofString? hread
    obtain ⟨hvalue, -, -⟩ := htypes "iNT"
    exact ⟨h, rfl, hprimitive, v, table, hv, htable, (hvalue "b").1 hprimitive⟩

end Heuristics

end ClassDiagram
