import ClassDiagram.Proofs.Reading
import ClassDiagram.Proofs.Step

/-! Everything that is recorded is in normal form. A line only writes what the readers take from it,
inside a body as on the line of a head, so a model in normal form stays so under every further line. -/

namespace ClassDiagram

open Text Markup

/-! ### Models in normal form -/

structure Class.Normal (c : Class) : Prop where
  name : '\n' ∉ c.name.toList
  displayName : '\n' ∉ c.displayName.toList
  package : ∀ p ∈ c.package, IsWord p.toList
  attributes : ∀ a ∈ c.attributes, a.Normal
  methods : ∀ f ∈ c.methods, f.Normal

structure Interface.Normal (i : Interface) : Prop where
  name : IsWord i.name.toList
  package : ∀ p ∈ i.package, IsWord p.toList
  attributes : ∀ a ∈ i.attributes, a.Normal

structure Enumeration.Normal (e : Enumeration) : Prop where
  name : IsWord e.name.toList
  package : ∀ p ∈ e.package, IsWord p.toList
  values : ∀ v ∈ e.values, IsNormalValue v

namespace Model

structure Normal (m : Model) : Prop where
  classes : ∀ c ∈ m.classes, c.Normal
  interfaces : ∀ i ∈ m.interfaces, i.Normal
  enums : ∀ e ∈ m.enums, e.Normal
  relations : ∀ r ∈ m.relations, r.Normal
  packages : ∀ p ∈ m.packages, IsWord p.toList

variable {m : Model}

theorem forall_mem_modify {α : Type} {P : α → Prop} {f : α → α} (hf : ∀ x, P x → P (f x))
    {l : List α} (h : ∀ x ∈ l, P x) (i : ℕ) : ∀ x ∈ l.modify i f, P x := by
  induction l generalizing i with
  | nil => simp
  | cons a l ih =>
    obtain ⟨ha, hl⟩ := List.forall_mem_cons.1 h
    cases i with
    | zero => exact List.forall_mem_cons.2 ⟨hf a ha, hl⟩
    | succ i => exact List.forall_mem_cons.2 ⟨ha, ih hl i⟩

theorem Normal.addPackage (h : m.Normal) {name : String} (hname : IsWord name.toList) :
    (m.addPackage name).Normal := by
  unfold Model.addPackage
  split
  · exact h
  · exact { h with packages :=
      List.forall_mem_append.2 ⟨h.packages, List.forall_mem_singleton.2 hname⟩ }

theorem Normal.addRelation (h : m.Normal) {r : Relation} (hr : r.Normal) :
    (m.addRelation r).1.Normal := by
  unfold Model.addRelation
  split
  · exact h
  · exact { h with relations :=
      List.forall_mem_append.2 ⟨h.relations, List.forall_mem_singleton.2 hr⟩ }

theorem Normal.addMember (h : m.Normal) (e : EntityRef) {line : List Char} (hline : '\n' ∉ line) :
    (Session.addMember m e line).Normal := by
  rcases Session.addMember_cases m e line with heq | ⟨-, -, f, hread, heq⟩ |
    ⟨-, hparens, a, hread, heq⟩ | ⟨-, hparens, a, hread, heq⟩ | ⟨-, v, hread, heq⟩ <;> rw [heq]
  · exact h
  · obtain ⟨s, hs, hmethod⟩ := Scan.exists_of_leftmost hread
    have hf : f.Normal := normal_readMethod hmethod fun hmem => hline (hs.subset hmem)
    have hadd (c : Class) (hc : c.Normal) : Class.Normal { c with methods := c.methods ++ [f] } :=
      { hc with methods := List.forall_mem_append.2 ⟨hc.methods, List.forall_mem_singleton.2 hf⟩ }
    exact { h with classes := forall_mem_modify hadd h.classes e.index }
  · have ha : a.Normal := normal_readAttribute hread hline hparens
    have hadd (c : Class) (hc : c.Normal) :
        Class.Normal { c with attributes := c.attributes ++ [a] } :=
      { hc with attributes :=
        List.forall_mem_append.2 ⟨hc.attributes, List.forall_mem_singleton.2 ha⟩ }
    exact { h with classes := forall_mem_modify hadd h.classes e.index }
  · have ha : a.Normal := normal_readAttribute hread hline hparens
    have hadd (i : Interface) (hi : i.Normal) :
        Interface.Normal { i with attributes := i.attributes ++ [a] } :=
      { hi with attributes :=
        List.forall_mem_append.2 ⟨hi.attributes, List.forall_mem_singleton.2 ha⟩ }
    exact { h with interfaces := forall_mem_modify hadd h.interfaces e.index }
  · have hv : IsNormalValue v := normal_readValue hread hline
    have hadd (e : Enumeration) (he : e.Normal) :
        Enumeration.Normal { e with values := e.values ++ [v] } :=
      { he with values := List.forall_mem_append.2 ⟨he.values, List.forall_mem_singleton.2 hv⟩ }
    exact { h with enums := forall_mem_modify hadd h.enums e.index }

end Model

namespace Markup.Session

variable {s : Session} {line rest : List Char} {m : Model} {e : EntityRef} {p : Option String}

theorem content_subset (line : List Char) : content line ⊆ line := by
  unfold content
  split
  · exact fun c hc => (List.dropLast_subset line) ((trim_isInfix _).subset hc)
  · exact List.Subset.refl line

theorem Declares.suffix (h : Declares s line m e rest) : rest <:+ line := by
  cases h with
  | classes keyword read => exact (headFrom_readClassHead read).rest
  | interfaces keyword read => exact (eq_of_readNamed read).2
  | enums keyword read => exact (eq_of_readNamed read).2

theorem Declares.normal (h : Declares s line m e rest) (hline : '\n' ∉ line)
    (hs : s.model.Normal) (hpackage : ∀ p ∈ s.package, IsWord p.toList) : m.Normal := by
  cases h with
  | @classes head rest keyword read =>
    have hhead := headFrom_readClassHead read
    have hnew : Class.Normal ⟨head.name, head.displayName, s.package, [], []⟩ :=
      ⟨fun h => hline (hhead.name h), fun h => hline (hhead.displayName h), hpackage, by simp,
        by simp⟩
    exact { hs with classes :=
      List.forall_mem_append.2 ⟨hs.classes, List.forall_mem_singleton.2 hnew⟩ }
  | @interfaces name rest keyword read =>
    have hnew : Interface.Normal ⟨name, s.package, []⟩ :=
      ⟨(eq_of_readNamed read).1, hpackage, by simp⟩
    exact { hs with interfaces :=
      List.forall_mem_append.2 ⟨hs.interfaces, List.forall_mem_singleton.2 hnew⟩ }
  | @enums name rest keyword read =>
    have hnew : Enumeration.Normal ⟨name, s.package, []⟩ :=
      ⟨(eq_of_readNamed read).1, hpackage, by simp⟩
    exact { hs with enums := List.forall_mem_append.2 ⟨hs.enums, List.forall_mem_singleton.2 hnew⟩ }

theorem Writes.normal (h : Writes s line m p) (hline : '\n' ∉ line) (hs : s.model.Normal)
    (hpackage : ∀ p ∈ s.package, IsWord p.toList) : m.Normal ∧ ∀ q ∈ p, IsWord q.toList := by
  cases h with
  | skip => exact ⟨hs, hpackage⟩
  | closePackage => exact ⟨hs, by simp⟩
  | openPackage read =>
    have hname := isWord_of_readPackage read
    exact ⟨hs.addPackage hname, by simpa using hname⟩
  | relation found =>
    exact ⟨hs.addRelation (Relation.normal_find? (find?_of_relation? found)), hpackage⟩
  | @member e mode => exact ⟨hs.addMember e fun h => hline (content_subset line h), hpackage⟩
  | head declares => exact ⟨declares.normal hline hs hpackage, hpackage⟩
  | @headMember _ e rest before inner declares cut =>
    have hinner : inner <:+ line := by
      have hrest := eq_of_cut? cut
      refine List.IsSuffix.trans ?_ declares.suffix
      rw [hrest, ← List.append_assoc]
      exact List.suffix_append _ _
    refine ⟨(declares.normal hline hs hpackage).addMember e fun h => hline ?_, hpackage⟩
    exact hinner.subset ((trim_isInfix inner).subset (content_subset _ h))

theorem normal_run (hs : s.model.Normal) (hpackage : ∀ p ∈ s.package, IsWord p.toList)
    {lines : List (List Char)} (hlines : ∀ l ∈ lines, '\n' ∉ l) : (s.run lines).model.Normal := by
  induction lines generalizing s with
  | nil => exact hs
  | cons line lines ih =>
    obtain ⟨hline, hlines⟩ := List.forall_mem_cons.1 hlines
    obtain ⟨hmodel, hnext⟩ :=
      (s.step_writes line).normal (fun h => hline ((trim_isInfix line).subset h)) hs hpackage
    exact ih hmodel hnext hlines

end Markup.Session

/-! ### Recorded texts -/

def Attribute.texts (a : Attribute) : List String := a.name :: a.type :: a.defaultValue.toList

def Method.texts (f : Method) : List String := [f.name, f.returnType]

def Class.texts (c : Class) : List String :=
  c.name :: c.displayName :: c.package.toList ++ c.attributes.flatMap (·.texts) ++
    c.methods.flatMap (·.texts)

def Interface.texts (i : Interface) : List String :=
  i.name :: i.package.toList ++ i.attributes.flatMap (·.texts)

def Enumeration.texts (e : Enumeration) : List String := e.name :: e.package.toList ++ e.values

/-- Every text that a model holds. -/
def Model.texts (m : Model) : List String :=
  m.classes.flatMap (·.texts) ++ m.interfaces.flatMap (·.texts) ++ m.enums.flatMap (·.texts) ++
    m.relations.flatMap (fun r => [r.source, r.target]) ++ m.packages

/-- A text that stays on one line. -/
def OneLine (s : String) : Prop := '\n' ∉ s.toList

theorem oneLine_of_isWord {s : String} (h : IsWord s.toList) : OneLine s := h.not_mem rfl

theorem Attribute.Normal.oneLine {a : Attribute} (h : a.Normal) : ∀ s ∈ a.texts, OneLine s := by
  intro s hs
  simp only [Attribute.texts, List.mem_cons, Option.mem_toList] at hs
  rcases hs with rfl | rfl | hs
  · exact oneLine_of_isWord h.name
  · exact h.type.newline
  · exact (h.default s hs).newline

theorem Method.Normal.oneLine {f : Method} (h : f.Normal) : ∀ s ∈ f.texts, OneLine s := by
  intro s hs
  simp only [Method.texts, List.mem_cons, List.not_mem_nil, or_false] at hs
  rcases hs with rfl | rfl
  · exact oneLine_of_isWord h.name
  · exact h.newline

theorem Class.Normal.oneLine {c : Class} (h : c.Normal) : ∀ s ∈ c.texts, OneLine s := by
  intro s hs
  simp only [Class.texts, List.mem_cons, List.mem_append, Option.mem_toList, List.mem_flatMap] at hs
  rcases hs with ((rfl | rfl | hs) | ⟨a, ha, hs⟩) | ⟨f, hf, hs⟩
  · exact h.name
  · exact h.displayName
  · exact oneLine_of_isWord (h.package s hs)
  · exact (h.attributes a ha).oneLine s hs
  · exact (h.methods f hf).oneLine s hs

theorem Interface.Normal.oneLine {i : Interface} (h : i.Normal) : ∀ s ∈ i.texts, OneLine s := by
  intro s hs
  simp only [Interface.texts, List.mem_cons, List.mem_append, Option.mem_toList,
    List.mem_flatMap] at hs
  rcases hs with (rfl | hs) | ⟨a, ha, hs⟩
  · exact oneLine_of_isWord h.name
  · exact oneLine_of_isWord (h.package s hs)
  · exact (h.attributes a ha).oneLine s hs

theorem Enumeration.Normal.oneLine {e : Enumeration} (h : e.Normal) : ∀ s ∈ e.texts, OneLine s := by
  intro s hs
  simp only [Enumeration.texts, List.mem_cons, List.mem_append, Option.mem_toList] at hs
  rcases hs with (rfl | hs) | hs
  · exact oneLine_of_isWord h.name
  · exact oneLine_of_isWord (h.package s hs)
  · exact (h.values s hs).newline

theorem Model.Normal.oneLine {m : Model} (h : m.Normal) : ∀ s ∈ m.texts, OneLine s := by
  intro s hs
  simp only [Model.texts, List.mem_append, List.mem_flatMap, List.mem_cons, List.not_mem_nil,
    or_false] at hs
  rcases hs with (((⟨c, hc, hs⟩ | ⟨i, hi, hs⟩) | ⟨e, he, hs⟩) | ⟨r, hr, rfl | rfl⟩) | hs
  · exact (h.classes c hc).oneLine s hs
  · exact (h.interfaces i hi).oneLine s hs
  · exact (h.enums e he).oneLine s hs
  · exact oneLine_of_isWord (h.relations r hr).source
  · exact oneLine_of_isWord (h.relations r hr).target
  · exact oneLine_of_isWord (h.packages s hs)

namespace Markup

/-- Whatever the text, its model is in normal form: names are words, types and values are trimmed and
hold none of the signs at which they are cut, and nothing that is recorded reaches past a line. -/
theorem normal_parse (text : String) :
    (parse text).Normal ∧ ∀ s ∈ (parse text).texts, OneLine s := by
  have hempty : Model.empty.Normal := by constructor <;> simp [Model.empty]
  have hnormal : (parse text).Normal :=
    Session.normal_run hempty (by simp [Session.start]) fun _ => newline_of_mem_lines
  exact ⟨hnormal, hnormal.oneLine⟩

/-- Two slashes that come together when a bracket between them is dropped start a comment, too. -/
example : (parse "enum E \x7b\nA /[]/ c\n\x7d\n").enums = [⟨"E", none, ["A"]⟩] := by decide

end Markup

end ClassDiagram
