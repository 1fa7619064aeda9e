import ClassDiagram.Model.Basic
import ClassDiagram.Proofs.Arrow
import ClassDiagram.Proofs.Line
import Mathlib.Tactic.MkIffOfInductiveProp

/-! The text that is written for a model, and the models for which there is one. The blanks and the
mark of a member line are up to the writer; everything else follows the model. -/

namespace ClassDiagram

open Text Markup

/-! ### Models that can be written -/

/-- The texts of an attribute that the reader has to find again. -/
def Attribute.text (a : Attribute) : List Char := a.type.toList ++ (a.defaultValue.getD "").toList

/-- Records a package name, if there is one. -/
def Model.addWithin (m : Model) : Option String → Model
  | none => m
  | some p => m.addPackage p

/-- A default value that can stand at the end of a line. -/
@[mk_iff] structure IsDefault (v : String) : Prop where
  trimmed : Trimmed v.toList
  newline : '\n' ∉ v.toList
  slashes : contains "//".toList v.toList = false

@[mk_iff] structure Attribute.Writable (a : Attribute) : Prop where
  name : IsWord a.name.toList
  ne_nil : a.type.toList ≠ []
  trimmed : Trimmed a.type.toList
  unmarked : a.type.toList.head?.any (· ∈ marks) = false
  newline : '\n' ∉ a.type.toList
  slashes : contains "//".toList a.type.toList = false
  equals : '=' ∉ a.type.toList
  default : ∀ v ∈ a.defaultValue, IsDefault v
  parentheses : ¬ ('(' ∈ a.text ∧ ')' ∈ a.text)
  braces : a.text.count '\x7b' = a.text.count '\x7d'

@[mk_iff] structure Method.Writable (f : Method) : Prop where
  name : IsWord f.name.toList
  ne_nil : f.returnType.toList ≠ []
  trimmed : Trimmed f.returnType.toList
  newline : '\n' ∉ f.returnType.toList
  braces : f.returnType.toList.count '\x7b' = f.returnType.toList.count '\x7d'

/-- A display name that can stand between quotes. -/
@[mk_iff] structure IsShown (shown : String) : Prop where
  ne_nil : shown.toList ≠ []
  quote : '"' ∉ shown.toList
  newline : '\n' ∉ shown.toList

@[mk_iff] structure Class.Writable (c : Class) : Prop where
  name : IsWord c.name.toList
  displayName : c.displayName = c.name ∨ IsShown c.displayName
  attributes : ∀ a ∈ c.attributes, a.Writable
  methods : ∀ f ∈ c.methods, f.Writable

@[mk_iff] structure Interface.Writable (i : Interface) : Prop where
  name : IsWord i.name.toList
  attributes : ∀ a ∈ i.attributes, a.Writable

@[mk_iff] structure IsValue (v : String) : Prop where
  word : IsWord v.toList
  separator : startsWith "__".toList v.toList = false
  directive : startsWith "skinparam".toList v.toList = false

@[mk_iff] structure Enumeration.Writable (e : Enumeration) : Prop where
  name : IsWord e.name.toList
  values : ∀ v ∈ e.values, IsValue v

@[mk_iff] structure Relation.Writable (r : Relation) : Prop where
  source : IsWord r.source.toList
  target : IsWord r.target.toList
  unreserved : r.source ∉ reserved
  directive : startsWith "skinparam".toList r.source.toList = false

@[mk_iff] structure Model.Writable (m : Model) : Prop where
  packages : ∀ p ∈ m.packages, IsWord p.toList
  packages_nodup : m.packages.Nodup
  classes : ∀ c ∈ m.classes, c.Writable
  classes_within : ∀ c ∈ m.classes, ∀ p ∈ c.package, p ∈ m.packages
  interfaces : ∀ i ∈ m.interfaces, i.Writable
  interfaces_within : ∀ i ∈ m.interfaces, ∀ p ∈ i.package, p ∈ m.packages
  enums : ∀ e ∈ m.enums, e.Writable
  enums_within : ∀ e ∈ m.enums, ∀ p ∈ e.package, p ∈ m.packages
  relations : ∀ r ∈ m.relations, r.Writable
  relations_nodup : m.relations.Nodup

instance : DecidablePred IsDefault := fun v => decidable_of_iff' _ (isDefault_iff v)

instance : DecidablePred Attribute.Writable := fun a =>
  decidable_of_iff' _ (Attribute.writable_iff a)

instance : DecidablePred Method.Writable := fun f => decidable_of_iff' _ (Method.writable_iff f)

instance : DecidablePred IsShown := fun s => decidable_of_iff' _ (isShown_iff s)

instance : DecidablePred Class.Writable := fun c => decidable_of_iff' _ (Class.writable_iff c)

instance : DecidablePred Interface.Writable := fun i =>
  decidable_of_iff' _ (Interface.writable_iff i)

instance : DecidablePred IsValue := fun v => decidable_of_iff' _ (isValue_iff v)

instance : DecidablePred Enumeration.Writable := fun e =>
  decidable_of_iff' _ (Enumeration.writable_iff e)

instance : DecidablePred Relation.Writable := fun r =>
  decidable_of_iff' _ (Relation.writable_iff r)

instance : DecidablePred Model.Writable := fun m => decidable_of_iff' _ (Model.writable_iff m)

end ClassDiagram

namespace ClassDiagram.Markup

open Text

/-! ### The text of a model -/

/-- Blanks within a line. -/
structure Gap where
  chars : List Char
  blank : ∀ c ∈ chars, isBlank c = true
  newline : '\n' ∉ chars

/-- The choices of a writer: the mark in front of a member, one step of indentation, and the gaps
behind the mark and around the signs of a member line. -/
structure Style where
  mark : Char
  mark_mem : mark ∈ marks
  indent : Gap
  afterMark : Gap
  beforeColon : Gap
  afterColon : Gap
  beforeEquals : Gap
  afterEquals : Gap

/-- What a diagram declares, one piece after the other. -/
inductive Item where
  | ofPackage (name : String)
  | ofClass (c : Class)
  | ofInterface (i : Interface)
  | ofEnum (e : Enumeration)
  | ofRelation (r : Relation)
  deriving DecidableEq, Repr

/-- Adds a piece to a model. A package around an entity is recorded before the entity. -/
def Item.add (m : Model) : Item → Model
  | .ofPackage p => m.addPackage p
  | .ofClass c => (m.addWithin c.package).addClass c
  | .ofInterface i => (m.addWithin i.package).addInterface i
  | .ofEnum e => (m.addWithin e.package).addEnum e
  | .ofRelation r => (m.addRelation r).1

def Item.Writable : Item → Prop
  | .ofPackage p => IsWord p.toList
  | .ofClass c => c.Writable ∧ ∀ p ∈ c.package, IsWord p.toList
  | .ofInterface i => i.Writable ∧ ∀ p ∈ i.package, IsWord p.toList
  | .ofEnum e => e.Writable ∧ ∀ p ∈ e.package, IsWord p.toList
  | .ofRelation r => r.Writable

/-- The first line of a block: a keyword, a name and an opening brace. -/
def opening (keyword : String) (shown : List Char) : List Char :=
  keyword.toList ++ ' ' :: (shown ++ [' ', '\x7b'])

/-- The name of a class in its first line, with the display name in front when it is another. -/
def shownName (c : Class) : List Char :=
  if c.displayName = c.name then c.name.toList
  else '"' :: c.displayName.toList ++ '"' :: (" as ".toList ++ c.name.toList)

def relationLine (r : Relation) : List Char :=
  r.source.toList ++ ' ' :: (r.kind.arrow.toList ++ ' ' :: r.target.toList)

namespace Style

variable (style : Style)

/-- The type of an attribute and its default, if it has one. -/
def typeText (a : Attribute) : List Char :=
  match a.defaultValue with
  | none => a.type.toList
  | some v =>
    a.type.toList ++ (style.beforeEquals.chars ++ '=' :: (style.afterEquals.chars ++ v.toList))

/-- A mark, a name and what follows it. -/
def memberLine (name : String) (rest : List Char) : List Char :=
  style.mark :: (style.afterMark.chars ++ (name.toList ++ rest))

/-- A colon with its blanks, and a type. -/
def typed (type : List Char) : List Char :=
  style.beforeColon.chars ++ ':' :: (style.afterColon.chars ++ type)

def attributeLine (a : Attribute) : List Char :=
  style.memberLine a.name (style.typed (style.typeText a))

def methodLine (f : Method) : List Char :=
  style.memberLine f.name ('(' :: ')' :: style.typed f.returnType.toList)

/-- A first line, indented lines and a closing brace. -/
def block (first : List Char) (inner : List (List Char)) : List (List Char) :=
  first :: (inner.map (style.indent.chars ++ ·) ++ [['\x7d']])

/-- Lines inside a package, if there is one. -/
def within : Option String → List (List Char) → List (List Char)
  | none, ls => ls
  | some p, ls => style.block (opening "package" p.toList) ls

def classLines (c : Class) : List (List Char) :=
  style.block (opening "class" (shownName c))
    (c.attributes.map style.attributeLine ++ c.methods.map style.methodLine)

def interfaceLines (i : Interface) : List (List Char) :=
  style.block (opening "interface" i.name.toList) (i.attributes.map style.attributeLine)

def enumLines (e : Enumeration) : List (List Char) :=
  style.block (opening "enum" e.name.toList) (e.values.map String.toList)

def itemLines : Item → List (List Char)
  | .ofPackage p => style.within (some p) []
  | .ofClass c => style.within c.package (style.classLines c)
  | .ofInterface i => style.within i.package (style.interfaceLines i)
  | .ofEnum e => style.within e.package (style.enumLines e)
  | .ofRelation r => [relationLine r]

end Style

/-- The pieces of a model: its packages, empty at first, then its entities, then its relations. -/
def items (m : Model) : List Item :=
  m.packages.map .ofPackage ++ m.classes.map .ofClass ++ m.interfaces.map .ofInterface ++
    m.enums.map .ofEnum ++ m.relations.map .ofRelation

/-- The text of a model. -/
def Style.text (style : Style) (m : Model) : String :=
  String.ofList (unlines ((items m).flatMap style.itemLines))

/-- A writer who leaves one blank everywhere and two for indentation. -/
def plainStyle : Style where
  mark := '+'
  mark_mem := by decide
  indent := ⟨[' ', ' '], List.forall_mem_cons.2 ⟨rfl, blank_space⟩, by decide⟩
  afterMark := ⟨[' '], blank_space, by decide⟩
  beforeColon := ⟨[' '], blank_space, by decide⟩
  afterColon := ⟨[' '], blank_space, by decide⟩
  beforeEquals := ⟨[' '], blank_space, by decide⟩
  afterEquals := ⟨[' '], blank_space, by decide⟩

example : (plainStyle.text ⟨[], [⟨"Named", some "p", [⟨"label", "String", none⟩]⟩], [],
    [⟨"Named", "Named", .nested⟩], ["p"]⟩) =
      "package p \x7b\n\x7d\n" ++
      "package p \x7b\n  interface Named \x7b\n    + label : String\n  \x7d\n\x7d\n" ++
      "Named +-- Named\n" := by
  decide

/-! ### Line feeds -/

section newlines

variable {style : Style} {first : List Char} {inner : List (List Char)}

theorem newline_typed {type : List Char} (h : '\n' ∉ type) : '\n' ∉ style.typed type := by
  simp [Style.typed, style.beforeColon.newline, style.afterColon.newline, h]

theorem newline_opening (keyword : String) {shown : List Char} (hk : '\n' ∉ keyword.toList)
    (hs : '\n' ∉ shown) : '\n' ∉ opening keyword shown := by
  simp [opening, hk, hs]

theorem newline_memberLine {name : String} {rest : List Char} (hname : IsWord name.toList)
    (hrest : '\n' ∉ rest) : '\n' ∉ style.memberLine name rest := by
  have hmark : '\n' ≠ style.mark := fun h => absurd (h ▸ style.mark_mem) (by decide)
  have hword : '\n' ∉ name.toList := hname.not_mem rfl
  simp [Style.memberLine, hmark, style.afterMark.newline, hword, hrest]

theorem newline_attributeLine {a : Attribute} (ha : a.Writable) :
    '\n' ∉ style.attributeLine a := by
  have htype : '\n' ∉ style.typeText a := by
    unfold Style.typeText
    cases hd : a.defaultValue with
    | none => exact ha.newline
    | some v =>
      simp [ha.newline, style.beforeEquals.newline, style.afterEquals.newline,
        (ha.default v hd).newline]
  exact newline_memberLine ha.name (newline_typed htype)

theorem newline_methodLine {f : Method} (hf : f.Writable) : '\n' ∉ style.methodLine f :=
  newline_memberLine hf.name (by simp [newline_typed hf.newline])

theorem newline_shownName {c : Class} (hc : c.Writable) : '\n' ∉ shownName c := by
  have hname : '\n' ∉ c.name.toList := hc.name.not_mem rfl
  unfold shownName
  split
  · exact hname
  · next hd => simp [(hc.displayName.resolve_left hd).newline, hname]

theorem newline_block (hfirst : '\n' ∉ first) (hinner : ∀ l ∈ inner, '\n' ∉ l) :
    ∀ l ∈ style.block first inner, '\n' ∉ l := by
  intro l hl
  rcases List.mem_cons.1 hl with rfl | hl
  · exact hfirst
  rcases List.mem_append.1 hl with hl | hl
  · obtain ⟨l', hl', rfl⟩ := List.mem_map.1 hl
    simp [style.indent.newline, hinner l' hl']
  · rw [List.mem_singleton.1 hl]
    decide

theorem newline_within {package : Option String} (hp : ∀ p ∈ package, IsWord p.toList)
    (hinner : ∀ l ∈ inner, '\n' ∉ l) : ∀ l ∈ style.within package inner, '\n' ∉ l := by
  cases package with
  | none => exact hinner
  | some p => exact newline_block (newline_opening _ (by decide) ((hp p rfl).not_mem rfl)) hinner

theorem newline_itemLines {it : Item} (hit : it.Writable) :
    ∀ l ∈ style.itemLines it, '\n' ∉ l := by
  cases it with
  | ofPackage p =>
    have hp : ∀ q ∈ some p, IsWord q.toList := fun q hq => Option.some.inj hq ▸ hit
    exact newline_within hp (by simp)
  | ofClass c =>
    refine newline_within hit.2 (newline_block
      (newline_opening _ (by decide) (newline_shownName hit.1)) fun l hl => ?_)
    rcases List.mem_append.1 hl with hl | hl
    · obtain ⟨a, ha, rfl⟩ := List.mem_map.1 hl
      exact newline_attributeLine (hit.1.attributes a ha)
    · obtain ⟨f, hf, rfl⟩ := List.mem_map.1 hl
      exact newline_methodLine (hit.1.methods f hf)
  | ofInterface i =>
    refine newline_within hit.2 (newline_block
      (newline_opening _ (by decide) (hit.1.name.not_mem rfl)) fun l hl => ?_)
    obtain ⟨a, ha, rfl⟩ := List.mem_map.1 hl
    exact newline_attributeLine (hit.1.attributes a ha)
  | ofEnum e =>
    refine newline_within hit.2 (newline_block
      (newline_opening _ (by decide) (hit.1.name.not_mem rfl)) fun l hl => ?_)
    obtain ⟨v, hv, rfl⟩ := List.mem_map.1 hl
    exact (hit.1.values v hv).word.not_mem rfl
  | ofRelation r =>
    have harrow : '\n' ∉ r.kind.arrow.toList := by cases r.kind <;> decide
    intro l hl
    rw [List.mem_singleton.1 hl]
    have hsource : '\n' ∉ r.source.toList := hit.source.not_mem rfl
    have htarget : '\n' ∉ r.target.toList := hit.target.not_mem rfl
    simp [relationLine, hsource, harrow, htarget]

end newlines

end ClassDiagram.Markup
