import ClassDiagram.Proofs.Line
import ClassDiagram.Proofs.Silent

/-! What one more line writes. Whatever mode a session is in, a line changes the model in one of a few
ways, and the package in one of three; here is the list of them, each with what was read on the line.
Properties of all models that are read follow from it, with one case for each way. -/

namespace ClassDiagram.Markup

open Text

instance (line : List Char) : Decidable (IsStatement line) :=
  decidable_of_iff (line ≠ [] ∧ isDirective line = false ∧ opensComment line = false ∧
      opensNote line = false)
    ⟨fun ⟨h₁, h₂, h₃, h₄⟩ => ⟨h₁, h₂, h₃, h₄⟩, fun h => ⟨h.ne_nil, h.directive, h.comment, h.note⟩⟩

instance (line : List Char) : Decidable (IsContent line) :=
  decidable_of_iff (IsStatement line ∧ isPackageLine line = false ∧ isClassLine line = false ∧
      isInterfaceLine line = false ∧ isEnumLine line = false ∧ line ≠ ['\x7d'])
    ⟨fun ⟨h₁, h₂, h₃, h₄, h₅, h₆⟩ => ⟨h₁, h₂, h₃, h₄, h₅, h₆⟩,
      fun h => ⟨h.toIsStatement, h.package, h.classes, h.interfaces, h.enums, h.ne_brace⟩⟩

namespace Session

/-- The relation that a trimmed line states. In a body, a note or a comment a line states none. -/
def relation? (s : Session) (line : List Char) : Option Relation :=
  match s.mode with
  | .outside | .declared _ => if IsContent line then Relation.find? line else none
  | _ => none

/-- A head adds its entity, with the package of the session and without members. What it leaves of
the line comes last. -/
inductive Declares (s : Session) (line : List Char) : Model → EntityRef → List Char → Prop
  | classes {head : ClassHead} {rest : List Char} (keyword : isClassLine line = true)
      (read : readClassHead line = some (head, rest)) :
      Declares s line (s.model.addClass ⟨head.name, head.displayName, s.package, [], []⟩)
        ⟨.classes, s.model.classes.length⟩ rest
  | interfaces {name : String} {rest : List Char} (keyword : isInterfaceLine line = true)
      (read : readNamed "interface" line = some (name, rest)) :
      Declares s line (s.model.addInterface ⟨name, s.package, []⟩)
        ⟨.interfaces, s.model.interfaces.length⟩ rest
  | enums {name : String} {rest : List Char} (keyword : isEnumLine line = true)
      (read : readNamed "enum" line = some (name, rest)) :
      Declares s line (s.model.addEnum ⟨name, s.package, []⟩)
        ⟨.enums, s.model.enums.length⟩ rest

/-- The model and the package that a trimmed line may leave behind. -/
inductive Writes (s : Session) (line : List Char) : Model → Option String → Prop
  | skip : Writes s line s.model s.package
  | closePackage : Writes s line s.model none
  | openPackage {name : String} (read : readPackage line = some name) :
      Writes s line (s.model.addPackage name) (some name)
  | relation {r : Relation} (found : s.relation? line = some r) :
      Writes s line (s.model.addRelation r).1 s.package
  | member {e : EntityRef} (mode : s.mode = .body e) :
      Writes s line (addMember s.model e (content line)) s.package
  | head {m : Model} {e : EntityRef} {rest : List Char} (declares : Declares s line m e rest) :
      Writes s line m s.package
  /-- Body text on the line of the head. -/
  | headMember {m : Model} {e : EntityRef} {rest before inner : List Char}
      (declares : Declares s line m e rest) (cut : cut? ['\x7b'] rest = some (before, inner)) :
      Writes s line (addMember m e (content (trim inner))) s.package

variable {s : Session} {e : EntityRef} {line : List Char}

theorem relation?_of_open (h : s.mode = .outside ∨ ∃ e, s.mode = .declared e)
    (hc : IsContent line) : s.relation? line = Relation.find? line := by
  unfold relation?
  rcases h with h | ⟨e, h⟩ <;> rw [h] <;> exact if_pos hc

theorem find?_of_relation? {r : Relation} (h : s.relation? line = some r) :
    Relation.find? line = some r := by
  unfold relation? at h
  split at h
  · exact (Option.ite_none_right_eq_some.1 h).2
  · exact (Option.ite_none_right_eq_some.1 h).2
  · contradiction

/-- A line behind a head that awaits its brace writes what it would write at the top level. -/
theorem Writes.of_declared (hmode : s.mode = .declared e) {m : Model} {p : Option String}
    (h : Writes { s with mode := .outside } line m p) : Writes s line m p := by
  have hdeclares {m : Model} {e : EntityRef} {rest : List Char}
      (hd : Declares { s with mode := .outside } line m e rest) : Declares s line m e rest := by
    cases hd with
    | classes keyword read => exact .classes keyword read
    | interfaces keyword read => exact .interfaces keyword read
    | enums keyword read => exact .enums keyword read
  cases h with
  | skip => exact .skip
  | closePackage => exact .closePackage
  | openPackage read => exact .openPackage read
  | relation found =>
    refine .relation ?_
    rw [← found, relation?, relation?, hmode]
  | member mode => contradiction
  | head declares => exact .head (hdeclares declares)
  | headMember declares cut => exact .headMember (hdeclares declares) cut

theorem readBody_writes (hmode : s.mode = .body e) (line : List Char) :
    Writes s line (s.readBody e line).model (s.readBody e line).package := by
  rcases s.readBody_model e line with h | h <;> rw [h]
  · exact .skip
  · exact .member hmode

/-- What the line of a head still writes once its entity is in the model. -/
theorem enter_writes {t : Session} {rest : List Char} (hd : Declares s line t.model e rest)
    (hp : t.package = s.package) :
    Writes s line (t.enter e rest).model (t.enter e rest).package := by
  have hhead : Writes s line t.model t.package := hp ▸ .head hd
  unfold enter
  split
  · exact hhead
  · next before inner hcut =>
    dsimp only
    split
    · exact hhead
    · rcases t.readBody_model e (trim inner) with h | h <;> rw [h]
      · exact hhead
      · exact hp ▸ .headMember hd hcut

theorem openPackage_writes (s : Session) (line : List Char) :
    Writes s line (s.openPackage line).model (s.openPackage line).package := by
  unfold openPackage
  split
  · exact .skip
  · next name hread => exact .openPackage hread

theorem declareClass_writes (s : Session) (h : isClassLine line = true) :
    Writes s line (s.declareClass line).model (s.declareClass line).package := by
  unfold declareClass
  split
  · exact .skip
  · next head rest hread => exact enter_writes (.classes h hread) rfl

theorem declareInterface_writes (s : Session) (h : isInterfaceLine line = true) :
    Writes s line (s.declareInterface line).model (s.declareInterface line).package := by
  unfold declareInterface
  split
  · exact .skip
  · next name rest hread => exact enter_writes (.interfaces h hread) rfl

theorem declareEnum_writes (s : Session) (h : isEnumLine line = true) :
    Writes s line (s.declareEnum line).model (s.declareEnum line).package := by
  unfold declareEnum
  split
  · exact .skip
  · next name rest hread => exact enter_writes (.enums h hread) rfl

theorem leaveBody_writes (s : Session) (line : List Char) :
    Writes s line s.leaveBody.model s.leaveBody.package := by
  unfold leaveBody
  split <;> exact .skip

theorem readContent_writes (hrelation : s.mode = .outside → s.relation? line = Relation.find? line)
    (hs : s.mode = .outside ∨ ∃ e, s.mode = .body e) :
    Writes s line (s.readContent line).model (s.readContent line).package := by
  rcases hs with hmode | ⟨e, hmode⟩
  · rw [readContent, hmode]
    cases hfind : Relation.find? line with
    | none => exact .skip
    | some r => exact .relation ((hrelation hmode).trans hfind)
  · rw [readContent, hmode]
    exact readBody_writes hmode line

theorem readStatement_writes (hs : s.mode = .outside ∨ ∃ e, s.mode = .body e)
    (h : IsStatement line) :
    Writes s line (s.readStatement line).model (s.readStatement line).package := by
  unfold readStatement
  split
  · exact openPackage_writes s line
  next hpackage =>
  split
  · exact .closePackage
  split
  · next hclass => exact declareClass_writes s hclass
  next hclass =>
  split
  · next hinterface => exact declareInterface_writes s hinterface
  next hinterface =>
  split
  · next henum => exact declareEnum_writes s henum
  next henum =>
  split
  · exact leaveBody_writes s line
  · next hbrace =>
    refine readContent_writes (fun hmode => relation?_of_open (.inl hmode) ?_) hs
    exact ⟨h, by simpa [hmode] using hpackage, by simpa using hclass, by simpa using hinterface,
      by simpa using henum, hbrace⟩

theorem readLine_writes (hs : s.mode.saved? = none) (line : List Char) :
    Writes s line (s.readLine line).model (s.readLine line).package := by
  unfold readLine
  split
  · exact .skip
  next hskip =>
  split
  · split <;> exact .skip
  next hcomment =>
  split
  · split <;> exact .skip
  next hnote =>
  have hskip : line ≠ [] ∧ isDirective line = false := by simpa using hskip
  have hstatement : IsStatement line :=
    ⟨hskip.1, hskip.2, by simpa using hcomment, by simpa using hnote⟩
  cases hmode : s.mode with
  | outside => exact readStatement_writes (.inl hmode) hstatement
  | declared e =>
    dsimp only
    split
    · exact .skip
    · exact (readStatement_writes (.inl rfl) hstatement).of_declared hmode
  | body e => exact readStatement_writes (.inr ⟨e, hmode⟩) hstatement
  | note r => simp [hmode, Mode.saved?] at hs
  | comment r => simp [hmode, Mode.saved?] at hs

theorem step_writes (s : Session) (line : List Char) :
    Writes s (trim line) (s.step line).model (s.step line).package := by
  cases hmode : s.mode with
  | note r =>
    rw [step_note hmode]
    split <;> exact .skip
  | comment r =>
    rw [step_comment hmode]
    split <;> exact .skip
  | _ =>
    have hopen : s.mode.saved? = none := by rw [hmode]; rfl
    rw [step_of_open hopen]
    exact readLine_writes hopen (trim line)

/-- A line that states a relation does nothing else to the model. -/
theorem step_of_relation? {r : Relation} (h : s.relation? (trim line) = some r) :
    (s.step line).model = (s.model.addRelation r).1 := by
  unfold relation? at h
  split at h
  · next hmode =>
    split at h
    · next hcontent => rw [step_relation hmode hcontent h]
    · contradiction
  · next e hmode =>
    split at h
    · next hc =>
      have hbrace : trim line ≠ ['\x7b'] := by
        intro heq
        have hnone : Relation.find? ['\x7b'] = none := by decide
        rw [heq, hnone] at h
        contradiction
      have hopen : s.mode.saved? = none := by rw [hmode]; rfl
      rw [step_of_open hopen]
      simp [readLine, hc.ne_nil, hc.directive, hc.comment, hc.note, hmode, hbrace,
        readStatement_content hc, readContent, h]
    · contradiction
  · contradiction

end Session

end ClassDiagram.Markup
