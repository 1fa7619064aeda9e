/-!
Maps from names to values, listed by name in the order of code points. Each name stands in a map at
most once, and an insertion replaces the value that is there.
-/

namespace ClassDiagram

/-- A map from names, as its entries in rising order. -/
structure NameMap (α : Type) where
  entries : List (String × α)
  sorted : entries.Pairwise fun a b => a.1 < b.1
  deriving DecidableEq, Repr

namespace NameMap

variable {α β γ : Type}

def place (name : String) (value : α) : List (String × α) → List (String × α)
  | [] => [(name, value)]
  | e :: es =>
    if name < e.1 then (name, value) :: e :: es
    else if e.1 < name then e :: place name value es
    else (name, value) :: es

theorem mem_place {name : String} {value : α} {e : String × α} {es : List (String × α)}
    (h : e ∈ place name value es) : e = (name, value) ∨ e ∈ es := by
  induction es with
  | nil => simpa [place] using h
  | cons f fs ih =>
    unfold place at h
    split at h
    · simpa using h
    · split at h
      · rcases List.mem_cons.1 h with rfl | h
        · simp
        · rcases ih h with rfl | h <;> simp [*]
      · rcases List.mem_cons.1 h with rfl | h <;> simp [*]

theorem sorted_place {name : String} {value : α} {es : List (String × α)}
    (h : es.Pairwise fun a b => a.1 < b.1) :
    (place name value es).Pairwise fun a b => a.1 < b.1 := by
  induction es with
  | nil => simp [place]
  | cons f fs ih =>
    have hf := List.pairwise_cons.1 h
    unfold place
    split
    · next hlt =>
      refine List.pairwise_cons.2 ⟨fun e he => ?_, h⟩
      rcases List.mem_cons.1 he with rfl | he
      · exact hlt
      · exact String.lt_trans hlt (hf.1 e he)
    · next hnlt =>
      split
      · next hgt =>
        refine List.pairwise_cons.2 ⟨fun e he => ?_, ih hf.2⟩
        rcases mem_place he with rfl | he
        · exact hgt
        · exact hf.1 e he
      · next hngt =>
        have heq : f.1 = name :=
          String.le_antisymm (String.not_lt.1 hnlt) (String.not_lt.1 hngt)
        exact List.pairwise_cons.2 ⟨fun e he => heq ▸ hf.1 e he, hf.2⟩

def empty : NameMap α := ⟨[], List.Pairwise.nil⟩

instance : Inhabited (NameMap α) := ⟨empty⟩

def insert (m : NameMap α) (name : String) (value : α) : NameMap α :=
  ⟨place name value m.entries, sorted_place m.sorted⟩

/-- The map of some entries, of which the last of each name counts. -/
def ofList (entries : List (String × α)) : NameMap α :=
  entries.foldl (fun m e => m.insert e.1 e.2) empty

theorem ofList_append_singleton (entries : List (String × α)) (e : String × α) :
    ofList (entries ++ [e]) = (ofList entries).insert e.1 e.2 := by
  rw [ofList, List.foldl_append]
  rfl

theorem mem_of_mem_foldl_insert {entries : List (String × α)} {m : NameMap α} {e : String × α}
    (h : e ∈ (entries.foldl (fun m e => m.insert e.1 e.2) m).entries) :
    e ∈ entries ∨ e ∈ m.entries := by
  induction entries generalizing m with
  | nil => exact .inr h
  | cons f fs ih =>
    rcases ih h with h | h
    · exact .inl (List.mem_cons_of_mem f h)
    · rcases mem_place h with rfl | h
      · exact .inl List.mem_cons_self
      · exact .inr h

theorem mem_of_mem_ofList {entries : List (String × α)} {e : String × α}
    (h : e ∈ (ofList entries).entries) : e ∈ entries :=
  (mem_of_mem_foldl_insert h).resolve_right List.not_mem_nil

def find? (m : NameMap α) (name : String) : Option α :=
  (m.entries.find? (·.1 = name)).map Prod.snd

theorem find?_place (name : String) (value : α) (es : List (String × α)) (x : String) :
    (place name value es).find? (·.1 = x) =
      if x = name then some (name, value) else es.find? (·.1 = x) := by
  induction es with
  | nil => by_cases hx : x = name <;> simp [place, hx, eq_comm]
  | cons f fs ih =>
    unfold place
    split
    · by_cases hx : x = name <;> simp [List.find?_cons, hx, eq_comm]
    · split
      · next hlt =>
        by_cases hf : f.1 = x
        · have hne : x ≠ name := fun h => absurd (hf.trans h) (String.ne_of_lt hlt)
          simp [hf, hne]
        · simp [hf, ih]
      · next hnlt hngt =>
        have heq : f.1 = name := String.le_antisymm (String.not_lt.1 hnlt) (String.not_lt.1 hngt)
        by_cases hx : x = name
        · simp [hx]
        · simp [heq, hx, eq_comm]

@[simp] theorem find?_empty (x : String) : (empty : NameMap α).find? x = none := rfl

theorem find?_insert (m : NameMap α) (name : String) (value : α) (x : String) :
    (m.insert name value).find? x = if x = name then some value else m.find? x := by
  unfold find? insert
  rw [find?_place]
  split <;> rfl

/-- What a name stands for after some entries, of which the last of the name counts. -/
theorem find?_foldl_insert (entries : List (String × α)) (m : NameMap α) (x : String) :
    (entries.foldl (fun m e => m.insert e.1 e.2) m).find? x =
      ((entries.reverse.find? (·.1 = x)).map Prod.snd).or (m.find? x) := by
  induction entries generalizing m with
  | nil => simp
  | cons e es ih =>
    rw [List.foldl_cons, ih, find?_insert, List.reverse_cons, List.find?_append]
    cases es.reverse.find? (·.1 = x) with
    | some f => rfl
    | none =>
      by_cases hx : e.1 = x
      · simp [hx]
      · simp [hx, Ne.symm hx]

theorem find?_ofList (entries : List (String × α)) (x : String) :
    (ofList entries).find? x = (entries.reverse.find? (·.1 = x)).map Prod.snd := by
  unfold ofList
  rw [find?_foldl_insert, find?_empty, Option.or_none]

def names (m : NameMap α) : List String := m.entries.map Prod.fst

theorem nodup_names (m : NameMap α) : m.names.Nodup :=
  List.pairwise_map.2 (m.sorted.imp fun h => String.ne_of_lt h)

/-- Maps of the same names list them in the same order. -/
theorem names_eq {m : NameMap α} {m' : NameMap β} (h : ∀ x, x ∈ m.names ↔ x ∈ m'.names) :
    m.names = m'.names := by
  have hperm := (List.perm_ext_iff_of_nodup m.nodup_names m'.nodup_names).2 h
  refine hperm.eq_of_pairwise (fun a b _ _ hab hba => ?_) (List.pairwise_map.2 m.sorted)
    (List.pairwise_map.2 m'.sorted)
  exact absurd (String.lt_trans hab hba) (String.lt_irrefl a)

theorem mem_names_iff (m : NameMap α) (x : String) : x ∈ m.names ↔ (m.find? x).isSome := by
  simp [names, find?]

theorem mem_names_ofList (entries : List (String × α)) (x : String) :
    x ∈ (ofList entries).names ↔ x ∈ entries.map Prod.fst := by
  simp [mem_names_iff, find?_ofList]

theorem mem_of_find?_ofList {entries : List (String × α)} {x : String} {v : α}
    (h : (ofList entries).find? x = some v) : (x, v) ∈ entries := by
  obtain ⟨e, he, rfl⟩ := Option.map_eq_some_iff.1 h
  have hx : e.1 = x := by simpa using List.find?_some he
  have hmem := mem_of_mem_ofList (List.mem_of_find?_eq_some he)
  rwa [← hx]

/-- A map of entries with different names holds every one of them. -/
theorem find?_ofList_of_mem {entries : List (String × α)} (hn : (entries.map Prod.fst).Nodup)
    {x : String} {v : α} (h : (x, v) ∈ entries) : (ofList entries).find? x = some v := by
  have hname : x ∈ (ofList entries).names :=
    (mem_names_ofList entries x).2 (List.mem_map.2 ⟨(x, v), h, rfl⟩)
  obtain ⟨w, hw⟩ := Option.isSome_iff_exists.1 ((mem_names_iff _ x).1 hname)
  obtain ⟨i, hi, hiw⟩ := List.getElem_of_mem (mem_of_find?_ofList hw)
  obtain ⟨j, hj, hjv⟩ := List.getElem_of_mem h
  have happart := List.pairwise_iff_getElem.1 (List.pairwise_map.1 hn)
  rcases Nat.lt_trichotomy i j with hij | rfl | hij
  · exact absurd (by rw [hiw, hjv]) (happart i j hi hj hij)
  · rw [hw, (Prod.mk.inj (hiw.symm.trans hjv)).2]
  · exact absurd (by rw [hiw, hjv]) (happart j i hj hi hij)

def values (m : NameMap α) : List α := m.entries.map Prod.snd

theorem mem_values_of_find? {m : NameMap α} {x : String} {v : α} (h : m.find? x = some v) :
    v ∈ m.values := by
  obtain ⟨e, he, rfl⟩ := Option.map_eq_some_iff.1 h
  exact List.mem_map.2 ⟨e, List.mem_of_find?_eq_some he, rfl⟩

def map (f : α → β) (m : NameMap α) : NameMap β :=
  ⟨m.entries.map fun e => (e.1, f e.2), by
    simpa [List.pairwise_map] using m.sorted⟩

@[simp] theorem names_map (f : α → β) (m : NameMap α) : (m.map f).names = m.names := by
  simp [names, map]

@[simp] theorem values_map (f : α → β) (m : NameMap α) : (m.map f).values = m.values.map f := by
  simp [values, map]

theorem map_map (f : α → β) (f' : β → γ) (m : NameMap α) : (m.map f).map f' = m.map (f' ∘ f) := by
  simp [map]

theorem find?_map (f : α → β) (m : NameMap α) (x : String) :
    (m.map f).find? x = (m.find? x).map f := by
  simp only [find?, map, List.find?_map, Function.comp_def, Option.map_map]

end NameMap

end ClassDiagram
