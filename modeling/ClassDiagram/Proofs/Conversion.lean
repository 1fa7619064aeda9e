import ClassDiagram.Proofs.Flatten
import Mathlib.Data.List.Find

/-! The schemas of all classes against the schemas of single ones. Two declarations of one name have
the same ancestors and the same interfaces, so they fail for the same reason, and where they do not
fail their schemas differ in nothing but what the declarations say themselves. -/

namespace ClassDiagram

variable {α β ε : Type} {f : α → Except ε β} {l : List α}

/-- A list is taken through whole when none of its elements fails. -/
theorem mapM_eq_ok_iff {bs : List β} : l.mapM f = .ok bs ↔ l.map f = bs.map .ok := by
  induction l generalizing bs with
  | nil => cases bs <;> simp [pure, Except.pure]
  | cons a l ih =>
    rw [List.mapM_cons, List.map_cons]
    cases bs with
    | nil => cases f a <;> cases l.mapM f <;> simp [bind, Except.bind, pure, Except.pure]
    | cons b bs =>
      rw [List.map_cons, List.cons.injEq, ← ih]
      cases f a <;> cases l.mapM f <;> simp [bind, Except.bind, pure, Except.pure]

/-- What is wrong with a list is what is wrong with the first element that fails. -/
theorem mapM_eq_error_iff {e : ε} : l.mapM f = .error e ↔
    ∃ a, (l.find? fun a => !(f a).isOk) = some a ∧ f a = .error e := by
  induction l with
  | nil => simp [pure, Except.pure]
  | cons a l ih =>
    rw [List.mapM_cons]
    cases hf : f a with
    | error e' => simp [hf, Except.isOk, Except.toBool, bind, Except.bind]
    | ok b =>
      have hskip : ((a :: l).find? fun a => !(f a).isOk) = l.find? fun a => !(f a).isOk := by
        simp [hf, Except.isOk, Except.toBool]
      rw [hskip, ← ih]
      cases l.mapM f <;> simp [bind, Except.bind, pure, Except.pure]

namespace Converter

variable {k : Converter} {c d : Class}

def ownFields (k : Converter) (c : Class) : List AttributeSchema :=
  c.attributes.map (k.attributeSchema c.name)

theorem interfaceFields_of_name (hn : c.name = d.name) :
    k.interfaceFields c = k.interfaceFields d := by
  rw [interfaceFields, interfaceFields, hn]

/-- Behind a chain, two declarations of one name fail alike, or their fields follow the same
inherited ones. -/
theorem flatten_of_name (hn : c.name = d.name) (chain : List String) :
    (∃ e, k.flatten chain c = .error e ∧ k.flatten chain d = .error e) ∨
    ∃ inherited, k.flatten chain c = .ok (inherited ++ k.ownFields c) ∧
      k.flatten chain d = .ok (inherited ++ k.ownFields d) := by
  by_cases hc : c.name ∈ chain
  · refine .inl ⟨_, flatten_of_mem k hc, ?_⟩
    rw [flatten_of_mem k (hn ▸ hc), hn]
  have hlevel (b : Class) : k.levelFields b = k.interfaceFields b ++ k.ownFields b := rfl
  rw [flatten_of_not_mem k hc, flatten_of_not_mem k (hn ▸ hc), hlevel, hlevel,
    interfaceFields_of_name hn, hn]
  cases k.index.parentClass? d.name with
  | none => exact .inr ⟨k.interfaceFields d, rfl, rfl⟩
  | some p =>
    dsimp only
    cases k.flatten (chain ++ [d.name]) p with
    | error e => exact .inl ⟨e, rfl, rfl⟩
    | ok fields =>
      refine .inr ⟨fields ++ k.interfaceFields d, ?_, ?_⟩ <;> rw [List.append_assoc] <;> rfl

theorem convertClass_eq_ok_iff {s : ClassSchema} : k.convertClass c = .ok s ↔
    ∃ attributes, k.flatten [] c = .ok attributes ∧
      { name := c.name, icon := k.heuristics.icon, title := k.heuristics.title c, attributes
        permissions := Permissions.all, derivesFrom := k.index.parents.find? c.name } = s := by
  unfold convertClass
  cases k.flatten [] c <;> simp

theorem convertClass_eq_error_iff {e : SchemaError} :
    k.convertClass c = .error e ↔ k.flatten [] c = .error e := by
  unfold convertClass
  cases k.flatten [] c <;> simp

theorem convertClass_error_of_name (hn : c.name = d.name) (e : SchemaError) :
    k.convertClass c = .error e ↔ k.convertClass d = .error e := by
  rw [convertClass_eq_error_iff, convertClass_eq_error_iff]
  obtain ⟨e', hc, hd⟩ | ⟨_, hc, hd⟩ := k.flatten_of_name hn [] <;> simp [hc, hd]

theorem convertClass_isOk_of_name (hn : c.name = d.name) :
    (k.convertClass c).isOk = (k.convertClass d).isOk := by
  cases hc : k.convertClass c with
  | error e => rw [(convertClass_error_of_name hn e).1 hc]
  | ok s =>
    cases hd : k.convertClass d with
    | error e => rw [(convertClass_error_of_name hn e).2 hd] at hc; cases hc
    | ok t => rfl

theorem name_of_convertClass {s : ClassSchema} (hs : k.convertClass c = .ok s) :
    s.name = c.name := by
  obtain ⟨_, -, rfl⟩ := convertClass_eq_ok_iff.1 hs
  rfl

theorem convertClass_ne_classNotFound (h : Heuristics) (m : Model) (c : Class) (name : String) :
    (ofModel h m).convertClass c ≠ .error (.classNotFound name) := by
  rcases convertClass_climbs h m c with ⟨n, -, -, hf⟩ | ⟨n, _, -, -, -, hf⟩ <;> rw [hf] <;> simp

end Converter

namespace Heuristics

open Converter

variable {h : Heuristics} {m : Model} {c : Class}

theorem convertOne_eq_classNotFound_iff (h : Heuristics) (m : Model) (name : String) :
    h.convertOne m name = .error (.classNotFound name) ↔ name ∉ m.classes.map (·.name) := by
  unfold convertOne
  cases hc : m.class? name with
  | none => simpa [Model.class?] using hc
  | some c =>
    have hmem : name ∈ m.classes.map (·.name) :=
      List.mem_map.2 ⟨c, List.mem_of_find?_eq_some hc, by simpa using List.find?_some hc⟩
    simp only [convertClass_ne_classNotFound, hmem, not_true]

/-- A declared name is converted from the first class that carries it. -/
theorem convertOne_of_mem (h : Heuristics) (hc : c ∈ m.classes) :
    ∃ d, m.class? c.name = some d ∧ d.name = c.name ∧
      h.convertOne m c.name = (ofModel h m).convertClass d := by
  cases hd : m.class? c.name with
  | none => exact absurd (decide_eq_true rfl) (List.find?_eq_none.1 hd c hc)
  | some d => exact ⟨d, rfl, by simpa using List.find?_some hd, by rw [convertOne, hd]⟩

theorem convertOne_isOk (h : Heuristics) (hc : c ∈ m.classes) :
    (h.convertOne m c.name).isOk = ((ofModel h m).convertClass c).isOk := by
  obtain ⟨d, -, hname, hone⟩ := h.convertOne_of_mem hc
  rw [hone, convertClass_isOk_of_name hname]

theorem convertOne_error_iff (h : Heuristics) (hc : c ∈ m.classes) (e : SchemaError) :
    h.convertOne m c.name = .error e ↔ (ofModel h m).convertClass c = .error e := by
  obtain ⟨d, -, hname, hone⟩ := h.convertOne_of_mem hc
  rw [hone, convertClass_error_of_name hname]

/-- The conversion of all classes fails as the first class does that fails on its own. -/
theorem convert_eq_error_iff {e : SchemaError} : h.convert m = .error e ↔
    ∃ c, (m.classes.find? fun c => !(h.convertOne m c.name).isOk) = some c ∧
      h.convertOne m c.name = .error e := by
  have hfind : (m.classes.find? fun c => !(h.convertOne m c.name).isOk) =
      m.classes.find? fun c => !((ofModel h m).convertClass c).isOk :=
    List.find?_congr fun c hc => by rw [h.convertOne_isOk hc]
  rw [convert, mapM_eq_error_iff, hfind]
  refine exists_congr fun c => and_congr_right fun hc => ?_
  rw [h.convertOne_error_iff (List.mem_of_find?_eq_some hc)]

theorem convert_isOk_iff : (h.convert m).isOk ↔ ∀ c ∈ m.classes, (h.convertOne m c.name).isOk := by
  cases hm : h.convert m with
  | error e =>
    obtain ⟨c, hc, hone⟩ := convert_eq_error_iff.1 hm
    refine iff_of_false Bool.false_ne_true fun hall => ?_
    have hok := hall c (List.mem_of_find?_eq_some hc)
    rw [hone] at hok
    exact Bool.false_ne_true hok
  | ok ss =>
    refine iff_of_true rfl fun c hc => ?_
    have hmap := mapM_eq_ok_iff.1 hm
    obtain ⟨s, -, hs⟩ := List.mem_map.1 (hmap ▸ List.mem_map_of_mem hc)
    rw [h.convertOne_isOk hc, ← hs]
    rfl

theorem convert_getElem? {ss : List ClassSchema} (hm : h.convert m = .ok ss) (i : ℕ) :
    (m.classes[i]?).map (ofModel h m).convertClass = (ss[i]?).map .ok := by
  rw [← List.getElem?_map, mapM_eq_ok_iff.1 hm, List.getElem?_map]

theorem names_of_convert {ss : List ClassSchema} (hm : h.convert m = .ok ss) :
    ss.map (·.name) = m.classes.map (·.name) := by
  refine List.ext_getElem? fun i => ?_
  have hi := convert_getElem? hm i
  rw [List.getElem?_map, List.getElem?_map]
  cases hc : m.classes[i]? <;> cases hs : ss[i]? <;> simp_all
  exact name_of_convertClass hi

/-- All classes are converted just where each is that is asked for by its name, and they fail as the
first class does that fails by its name. The schemas stand in the order of the classes; of several
classes of one name, the name stands for the first. -/
theorem convert_convertOne (h : Heuristics) (m : Model) :
    ((h.convert m).isOk ↔ ∀ c ∈ m.classes, (h.convertOne m c.name).isOk) ∧
    (∀ ss, h.convert m = .ok ss → ss.map (·.name) = m.classes.map (·.name) ∧
      ∀ name ∈ m.classes.map (·.name), ∃ s, ss[m.classes.findIdx (·.name = name)]? = some s ∧
        h.convertOne m name = .ok s) ∧
    (∀ e, h.convert m = .error e ↔
      ∃ c, (m.classes.find? fun c => !(h.convertOne m c.name).isOk) = some c ∧
        h.convertOne m c.name = .error e) ∧
    (∀ name, h.convertOne m name = .error (.classNotFound name) ↔
      name ∉ m.classes.map (·.name)) ∧
    (∀ name, h.convert m ≠ .error (.classNotFound name)) ∧
    (∀ name, h.generate m (some name) = (h.convertOne m name).map .one) ∧
    h.generate m none = (h.convert m).map .all := by
  refine ⟨convert_isOk_iff, fun ss hm => ⟨names_of_convert hm, fun name hname => ?_⟩,
    fun e => convert_eq_error_iff, h.convertOne_eq_classNotFound_iff m, fun name hm => ?_,
    fun name => rfl, rfl⟩
  · obtain ⟨c, hc, rfl⟩ := List.mem_map.1 hname
    obtain ⟨d, hd, -, hone⟩ := h.convertOne_of_mem hc
    rw [Model.class?, List.find?_eq_getElem?_findIdx] at hd
    have hplace := convert_getElem? hm (m.classes.findIdx (·.name = c.name))
    rw [hd, Option.map_some] at hplace
    obtain ⟨s, hs, heq⟩ := Option.map_eq_some_iff.1 hplace.symm
    exact ⟨s, hs, hone.trans heq.symm⟩
  · obtain ⟨c, hc, hone⟩ := convert_eq_error_iff.1 hm
    rw [h.convertOne_error_iff (List.mem_of_find?_eq_some hc)] at hone
    exact convertClass_ne_classNotFound h m c name hone

/-- Two classes `A`, the first without a field, and a class above them. -/
def namesakes : Model where
  classes := [⟨"B", "B", none, [⟨"x", "Int", none⟩], []⟩, ⟨"A", "A", none, [], []⟩,
    ⟨"A", "A", none, [⟨"y", "B", none⟩], []⟩]
  interfaces := []
  enums := []
  relations := [⟨"A", "B", .inheritance⟩]
  packages := []

theorem convert_convertOne_namesakes : ∃ ss, standard.convert namesakes = .ok ss ∧
    ss.map (·.attributes.length) = [1, 1, 2] ∧
    ∃ s, ss[1]? = some s ∧ standard.convertOne namesakes "A" = .ok s := by
  have hlengths : (standard.convert namesakes).toOption.map (·.map (·.attributes.length)) =
      some [1, 1, 2] := by decide +kernel
  cases hm : standard.convert namesakes with
  | error e => rw [hm] at hlengths; cases hlengths
  | ok ss =>
    rw [hm] at hlengths
    obtain ⟨s, hs, hone⟩ := ((convert_convertOne standard namesakes).2.1 ss hm).2 "A" (by decide)
    exact ⟨ss, rfl, Option.some.inj hlengths, s, hs, hone⟩

end Heuristics

end ClassDiagram
