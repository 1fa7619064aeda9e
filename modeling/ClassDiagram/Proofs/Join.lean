import ClassDiagram.Proofs.Latest
import ClassDiagram.Proofs.Text

/-! A diagram that stands behind another is read as if it stood alone. Its session takes the same
steps with the other model in front of its own: the places of its entities are counted from the end
of that model, and relations and package names that the model has already are not recorded again. -/

namespace ClassDiagram

open Text Markup

namespace Model

/-- A model with another behind it. Relations and package names that it has already are not
repeated. -/
def join (m m' : Model) : Model :=
  { classes := m.classes ++ m'.classes
    interfaces := m.interfaces ++ m'.interfaces
    enums := m.enums ++ m'.enums
    relations := m.relations ++ m'.relations.filter (· ∉ m.relations)
    packages := m.packages ++ m'.packages.filter (· ∉ m.packages) }

variable (m m' : Model)

theorem join_empty : m.join empty = m := by
  simp [join, empty]

theorem join_addClass (c : Class) : (m.join m').addClass c = m.join (m'.addClass c) := by
  simp [join, addClass]

theorem join_addInterface (i : Interface) :
    (m.join m').addInterface i = m.join (m'.addInterface i) := by
  simp [join, addInterface]

theorem join_addEnum (e : Enumeration) : (m.join m').addEnum e = m.join (m'.addEnum e) := by
  simp [join, addEnum]

theorem join_addPackage (name : String) :
    (m.join m').addPackage name = m.join (m'.addPackage name) := by
  by_cases h : name ∈ m.packages <;> by_cases h' : name ∈ m'.packages <;>
    simp [join, addPackage, h, h']

theorem join_addRelation (r : Relation) :
    ((m.join m').addRelation r).1 = m.join (m'.addRelation r).1 := by
  by_cases h : r ∈ m.relations <;> by_cases h' : r ∈ m'.relations <;>
    simp [join, addRelation, h, h']

theorem join_addAttribute (i : ℕ) (a : Attribute) :
    (m.join m').addAttribute (m.classes.length + i) a = m.join (m'.addAttribute i a) := by
  simp [join, addAttribute, modify_append_right]

theorem join_addMethod (i : ℕ) (f : Method) :
    (m.join m').addMethod (m.classes.length + i) f = m.join (m'.addMethod i f) := by
  simp [join, addMethod, modify_append_right]

theorem join_addInterfaceAttribute (i : ℕ) (a : Attribute) :
    (m.join m').addInterfaceAttribute (m.interfaces.length + i) a =
      m.join (m'.addInterfaceAttribute i a) := by
  simp [join, addInterfaceAttribute, modify_append_right]

theorem join_addValue (i : ℕ) (v : String) :
    (m.join m').addValue (m.enums.length + i) v = m.join (m'.addValue i v) := by
  simp [join, addValue, modify_append_right]

theorem count_join (k : EntityKind) : (m.join m').count k = m.count k + m'.count k := by
  cases k <;> simp [count, join]

end Model

namespace Markup

variable {m : Model}

/-- The place of an entity when a model stands in front of its own. -/
def EntityRef.behind (m : Model) (e : EntityRef) : EntityRef := ⟨e.kind, m.count e.kind + e.index⟩

def Mode.behind (m : Model) : Mode → Mode
  | .outside => .outside
  | .declared e => .declared (e.behind m)
  | .body e => .body (e.behind m)
  | .note resume => .note (resume.behind m)
  | .comment resume => .comment (resume.behind m)

theorem Mode.behind_eq_outside (mode : Mode) : mode.behind m = .outside ↔ mode = .outside := by
  cases mode <;> simp [behind]

namespace Session

/-- The session when a model stands in front of its own. -/
def behind (m : Model) (s : Session) : Session := ⟨m.join s.model, s.mode.behind m, s.package⟩

variable {s : Session}

theorem addMember_behind (m' : Model) (e : EntityRef) (line : List Char) :
    addMember (m.join m') (e.behind m) line = m.join (addMember m' e line) := by
  obtain ⟨kind, index⟩ := e
  cases kind with
  | classes =>
    simp only [addMember, EntityRef.behind, Model.count]
    split
    · cases Scan.leftmost readMethod line with
      | none => rfl
      | some f => exact m.join_addMethod m' index f
    · cases readAttribute line with
      | none => rfl
      | some a => exact m.join_addAttribute m' index a
  | interfaces =>
    simp only [addMember, EntityRef.behind, Model.count]
    split
    · rfl
    · cases readAttribute line with
      | none => rfl
      | some a => exact m.join_addInterfaceAttribute m' index a
  | enums =>
    simp only [addMember, EntityRef.behind, Model.count]
    cases readValue line with
    | none => rfl
    | some v => exact m.join_addValue m' index v

theorem readBody_behind (s : Session) (e : EntityRef) (line : List Char) :
    (s.behind m).readBody (e.behind m) line = (s.readBody e line).behind m := by
  rw [readBody_eq, readBody_eq]
  simp only [behind, addMember_behind]
  congr 1
  · split <;> rfl
  · split <;> rfl

theorem enter_behind (s : Session) (e : EntityRef) (rest : List Char) :
    (s.behind m).enter (e.behind m) rest = (s.enter e rest).behind m := by
  unfold enter
  cases cut? ['\x7b'] rest with
  | none => rfl
  | some p =>
    dsimp only
    split
    · rfl
    · exact readBody_behind s e _

theorem openPackage_behind (s : Session) (line : List Char) :
    (s.behind m).openPackage line = (s.openPackage line).behind m := by
  unfold openPackage
  cases readPackage line with
  | none => rfl
  | some name => simp [behind, Model.join_addPackage]

theorem declareClass_behind (s : Session) (line : List Char) :
    (s.behind m).declareClass line = (s.declareClass line).behind m := by
  have hcount := m.count_join s.model .classes
  unfold declareClass
  cases readClassHead line with
  | none => rfl
  | some p =>
    dsimp only [Model.count] at hcount ⊢
    rw [← enter_behind]
    simp only [behind, EntityRef.behind, Model.join_addClass, Model.count, hcount]

theorem declareInterface_behind (s : Session) (line : List Char) :
    (s.behind m).declareInterface line = (s.declareInterface line).behind m := by
  have hcount := m.count_join s.model .interfaces
  unfold declareInterface
  cases readNamed "interface" line with
  | none => rfl
  | some p =>
    dsimp only [Model.count] at hcount ⊢
    rw [← enter_behind]
    simp only [behind, EntityRef.behind, Model.join_addInterface, Model.count, hcount]

theorem declareEnum_behind (s : Session) (line : List Char) :
    (s.behind m).declareEnum line = (s.declareEnum line).behind m := by
  have hcount := m.count_join s.model .enums
  unfold declareEnum
  cases readNamed "enum" line with
  | none => rfl
  | some p =>
    dsimp only [Model.count] at hcount ⊢
    rw [← enter_behind]
    simp only [behind, EntityRef.behind, Model.join_addEnum, Model.count, hcount]

theorem leaveBody_behind (s : Session) : (s.behind m).leaveBody = s.leaveBody.behind m := by
  obtain ⟨model, mode, package⟩ := s
  cases mode <;> rfl

theorem readContent_behind (s : Session) (line : List Char) :
    (s.behind m).readContent line = (s.readContent line).behind m := by
  obtain ⟨model, mode, package⟩ := s
  cases mode with
  | body e => exact readBody_behind _ e line
  | _ =>
    simp only [readContent, behind, Mode.behind]
    cases Relation.find? line with
    | none => rfl
    | some r => simp only [Mode.behind, Model.join_addRelation]

theorem readStatement_behind (s : Session) (line : List Char) :
    (s.behind m).readStatement line = (s.readStatement line).behind m := by
  have hmode : (s.behind m).mode = .outside ↔ s.mode = .outside := Mode.behind_eq_outside s.mode
  have hpackage : (s.behind m).package = s.package := rfl
  unfold readStatement
  simp only [hmode, hpackage]
  split
  · exact openPackage_behind s line
  split
  · rfl
  split
  · exact declareClass_behind s line
  split
  · exact declareInterface_behind s line
  split
  · exact declareEnum_behind s line
  split
  · exact leaveBody_behind s
  · exact readContent_behind s line

theorem readLine_behind (s : Session) (line : List Char) :
    (s.behind m).readLine line = (s.readLine line).behind m := by
  obtain ⟨model, mode, package⟩ := s
  unfold readLine
  split
  · rfl
  split
  · split <;> rfl
  split
  · split <;> rfl
  cases mode with
  | declared e =>
    simp only [behind, Mode.behind]
    split
    · rfl
    · exact readStatement_behind ⟨model, .outside, package⟩ line
  | _ => exact readStatement_behind _ line

theorem step_behind (s : Session) (line : List Char) :
    (s.behind m).step line = (s.step line).behind m := by
  obtain ⟨model, mode, package⟩ := s
  cases mode with
  | note resume =>
    simp only [step, behind, Mode.behind]
    split <;> rfl
  | comment resume =>
    simp only [step, behind, Mode.behind]
    split <;> rfl
  | _ => exact readLine_behind _ (trim line)

theorem run_behind (s : Session) (lines : List (List Char)) :
    (s.behind m).run lines = (s.run lines).behind m := by
  induction lines generalizing s with
  | nil => rfl
  | cons line lines ih => rw [run_cons, run_cons, step_behind, ih]

/-- A session that is at the top level and in no package stands where one starts. -/
theorem eq_start_behind (hmode : s.mode = .outside) (hpackage : s.package = none) :
    s = start.behind s.model := by
  obtain ⟨model, mode, package⟩ := s
  obtain rfl : mode = .outside := hmode
  obtain rfl : package = none := hpackage
  simp [behind, start, Mode.behind, Model.join_empty]

end Session

/-- Behind a text that ends with a complete diagram, another text is read by itself. -/
theorem parse_append {t₁ t₂ : String} (hend : EndsLine t₁.toList)
    (hmode : (sessionAfter t₁).mode = .outside) (hpackage : (sessionAfter t₁).package = none) :
    parse (t₁ ++ t₂) = (parse t₁).join (parse t₂) := by
  have hstart : sessionAfter t₁ = Session.start.behind (parse t₁) :=
    Session.eq_start_behind hmode hpackage
  have hrun : sessionAfter (t₁ ++ t₂) = (sessionAfter t₁).run (lines t₂.toList) := by
    rw [sessionAfter, String.toList_append, lines_append hend, Session.run_append]
    rfl
  rw [parse, hrun, hstart, Session.run_behind]
  rfl

/-- Two diagrams with a package and a relation in common. -/
def sales : String := "package p \x7b\nclass A \x7b\nx : Int\n\x7d\n\x7d\nA --> B\n"

def stock : String := "package p \x7b\nclass B\n\x7b\nf()\n\x7d\nenum E\n\x7d\nA --> B\nB *-- E"

theorem parse_append_sales :
    EndsLine sales.toList ∧ (sessionAfter sales).mode = .outside ∧
      (sessionAfter sales).package = none ∧
      parse (sales ++ stock) = (parse sales).join (parse stock) := by
  have hend : EndsLine sales.toList := by decide
  have hmode : (sessionAfter sales).mode = .outside := by decide
  have hpackage : (sessionAfter sales).package = none := by decide
  exact ⟨hend, hmode, hpackage, parse_append hend hmode hpackage⟩

end Markup

end ClassDiagram
