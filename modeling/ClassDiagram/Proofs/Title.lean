import ClassDiagram.Proofs.Conversion
import ClassDiagram.Proofs.Text

/-! What a title refers to. Its placeholders name fields of the schema that the class declares
itself, however many others come to it from its ancestors and interfaces. Which attributes these are
is found by their names in lower case, while the fields keep their case but for the first letter. -/

namespace ClassDiagram

open Text

/-! ### Keywords -/

namespace Heuristics

/-- In lower case the name has a keyword of codes in it. -/
def TitleCode (h : Heuristics) (name : String) : Prop :=
  ∃ part ∈ h.titleCodeContains, part.toList <:+: lower name.toList

/-- In lower case the name is a keyword of names. -/
def TitleName (h : Heuristics) (name : String) : Prop :=
  ∃ word ∈ h.titleNameEquals, word.toList = lower name.toList

theorem isTitleCode_iff (h : Heuristics) (name : String) :
    h.isTitleCode name = true ↔ h.TitleCode name := by
  simp [isTitleCode, TitleCode, contains_iff]

theorem isTitleName_iff (h : Heuristics) (name : String) :
    h.isTitleName name = true ↔ h.TitleName name := by
  rw [isTitleName, decide_eq_true_iff, TitleName]
  constructor
  · intro hmem
    exact ⟨_, hmem, String.toList_ofList⟩
  · rintro ⟨word, hmem, hword⟩
    rwa [← hword, String.ofList_toList]

end Heuristics

/-- The place of the first attribute whose name is marked in some way. -/
structure FirstAt (marked : String → Prop) (attributes : List Attribute) (i : ℕ) : Prop where
  here : ∃ a, attributes[i]? = some a ∧ marked a.name
  before : ∀ a ∈ attributes.take i, ¬ marked a.name

section

variable {p : String → Bool} {marked : String → Prop} (hp : ∀ name, p name = true ↔ marked name)
  {attributes : List Attribute}

include hp

theorem find?_eq_none_of_unmarked (h : ∀ a ∈ attributes, ¬ marked a.name) :
    (attributes.find? fun a => p a.name) = none :=
  List.find?_eq_none.2 fun a ha hmark => h a ha ((hp a.name).1 hmark)

theorem exists_find?_of_marked (h : ∃ a ∈ attributes, marked a.name) :
    ∃ a, (attributes.find? fun a => p a.name) = some a := by
  obtain ⟨a, ha, hmark⟩ := h
  exact Option.isSome_iff_exists.1 (List.find?_isSome.2 ⟨a, ha, (hp a.name).2 hmark⟩)

theorem exists_firstAt {a : Attribute} (h : (attributes.find? fun a => p a.name) = some a) :
    ∃ i, FirstAt marked attributes i ∧ attributes[i]? = some a := by
  obtain ⟨ha, before, behind, rfl, hbefore⟩ := List.find?_eq_some_iff_append.1 h
  have hplace : (before ++ a :: behind)[before.length]? = some a := by simp
  refine ⟨before.length, ⟨⟨a, hplace, (hp a.name).1 ha⟩, fun b hb hmark => ?_⟩, hplace⟩
  rw [List.take_left] at hb
  have hnot := hbefore b hb
  rw [(hp b.name).2 hmark] at hnot
  contradiction

end

/-! ### Titles -/

def placeholder (name : String) : String := "\x7b" ++ name ++ "\x7d"

namespace Converter

variable {h : Heuristics} {m : Model} {k : Converter} {c : Class} {s : ClassSchema}

theorem ownFields_of_convertClass (hs : k.convertClass c = .ok s) :
    ∃ inherited, s.attributes = inherited ++ k.ownFields c ∧ s.title = k.heuristics.title c := by
  obtain ⟨fields, hfields, rfl⟩ := convertClass_eq_ok_iff.1 hs
  obtain ⟨e, herror, -⟩ | ⟨inherited, hok, -⟩ := k.flatten_of_name (rfl : c.name = c.name) []
  · rw [herror] at hfields
    cases hfields
  · rw [hok] at hfields
    exact ⟨inherited, (Except.ok.inj hfields).symm, rfl⟩

/-- The first own attribute with a mark has its field at its own place behind the inherited ones. -/
theorem exists_field (k : Converter) {p : String → Bool} {marked : String → Prop}
    (hp : ∀ name, p name = true ↔ marked name) (inherited : List AttributeSchema) {a : Attribute}
    (hfind : (c.attributes.find? fun a => p a.name) = some a) :
    ∃ i f, FirstAt marked c.attributes i ∧
      (inherited ++ k.ownFields c)[inherited.length + i]? = some f ∧
      titlePart a = placeholder f.name := by
  obtain ⟨i, hfirst, hplace⟩ := exists_firstAt hp hfind
  refine ⟨i, k.attributeSchema c.name a, hfirst, ?_, rfl⟩
  rw [List.getElem?_append_right (Nat.le_add_right _ i), Nat.add_sub_cancel_left, ownFields,
    List.getElem?_map, hplace]
  rfl

/-- Where no own attribute is a code, the title is the one for this case, whatever is inherited.
Otherwise it consists of placeholders for fields of the schema, which stand behind the inherited
ones at the places of the first code among the own attributes and of the first name among them, if
there is one. -/
theorem convertClass_title (hs : (ofModel h m).convertClass c = .ok s) :
    ∃ inherited, s.attributes = inherited ++ (ofModel h m).ownFields c ∧
      ((∀ a ∈ c.attributes, ¬ h.TitleCode a.name) → s.title = h.fallbackTitle) ∧
      ((∃ a ∈ c.attributes, h.TitleCode a.name) → ∃ i x, FirstAt h.TitleCode c.attributes i ∧
        s.attributes[inherited.length + i]? = some x ∧
        ((∀ a ∈ c.attributes, ¬ h.TitleName a.name) → s.title = placeholder x.name) ∧
        ((∃ a ∈ c.attributes, h.TitleName a.name) → ∃ j y, FirstAt h.TitleName c.attributes j ∧
          s.attributes[inherited.length + j]? = some y ∧
          s.title = placeholder x.name ++ " - " ++ placeholder y.name)) := by
  obtain ⟨inherited, hfields, htitle⟩ := ownFields_of_convertClass hs
  change s.title = h.title c at htitle
  rw [htitle, hfields, Heuristics.title]
  refine ⟨inherited, rfl, fun hnone => ?_, fun hcode => ?_⟩
  · rw [find?_eq_none_of_unmarked h.isTitleCode_iff hnone]
  obtain ⟨code, hfind⟩ := exists_find?_of_marked h.isTitleCode_iff hcode
  obtain ⟨i, x, hfirst, hplace, hpart⟩ :=
    (ofModel h m).exists_field h.isTitleCode_iff inherited hfind
  rw [hfind]
  refine ⟨i, x, hfirst, hplace, fun hnone => ?_, fun hname => ?_⟩
  · rw [find?_eq_none_of_unmarked h.isTitleName_iff hnone]
    exact hpart
  · obtain ⟨name, hfind⟩ := exists_find?_of_marked h.isTitleName_iff hname
    obtain ⟨j, y, hsecond, hbehind, hrest⟩ :=
      (ofModel h m).exists_field h.isTitleName_iff inherited hfind
    exact ⟨j, y, hsecond, hbehind, by rw [hfind, ← hpart, ← hrest]⟩

/-- A class with a name and two codes below another one with a code. -/
def article : Class :=
  ⟨"Articolo", "Articolo", none, [⟨"Descrizione", "String", none⟩, ⟨"CodiceArticolo", "Int", none⟩,
    ⟨"codice", "Int", none⟩], []⟩

def stock : Model where
  classes := [article, ⟨"Voce", "Voce", none, [⟨"codice", "Int", none⟩], []⟩]
  interfaces := []
  enums := []
  relations := [⟨"Articolo", "Voce", .inheritance⟩]
  packages := []

theorem convertClass_title_article :
    ∃ s, (ofModel Heuristics.standard stock).convertClass article = .ok s ∧
      s.attributes.map (·.name) = ["codice", "descrizione", "codiceArticolo", "codice"] ∧
      ∃ x ∈ s.attributes, ∃ y ∈ s.attributes,
        s.title = placeholder x.name ++ " - " ++ placeholder y.name := by
  have hnames : (((ofModel Heuristics.standard stock).convertClass article).toOption.map fun s =>
      s.attributes.map (·.name)) = some ["codice", "descrizione", "codiceArticolo", "codice"] := by
    decide +kernel
  cases hs : (ofModel Heuristics.standard stock).convertClass article with
  | error e => rw [hs] at hnames; cases hnames
  | ok s =>
    rw [hs] at hnames
    have hcode : ∃ a ∈ article.attributes, Heuristics.standard.TitleCode a.name :=
      ⟨⟨"codice", "Int", none⟩, by decide, (Heuristics.isTitleCode_iff _ _).1 (by decide +kernel)⟩
    have hname : ∃ a ∈ article.attributes, Heuristics.standard.TitleName a.name :=
      ⟨⟨"Descrizione", "String", none⟩, by decide,
        (Heuristics.isTitleName_iff _ _).1 (by decide +kernel)⟩
    obtain ⟨inherited, -, -, htitle⟩ := convertClass_title hs
    obtain ⟨i, x, -, hx, -, hboth⟩ := htitle hcode
    obtain ⟨j, y, -, hy, htext⟩ := hboth hname
    exact ⟨s, rfl, Option.some.inj hnames, x, List.mem_of_getElem? hx, y, List.mem_of_getElem? hy,
      htext⟩

end Converter

end ClassDiagram
