import ClassDiagram.Proofs.Growth

/-! A text that holds a diagram is taken for one. Whatever mode a line is read in, it adds an entity or
a relation only if it would be told as such when it is seen alone, and then it adds one. So a model
holds at most as many entities and relations as its text has telling lines. -/

namespace ClassDiagram

open Text Markup

namespace Model

/-- How many entities and relations a model holds. -/
def findings (m : Model) : ℕ := m.entityCount + m.relations.length

theorem Adds.findings_le {m m' : Model} {packages entities members relations : ℕ}
    (h : Adds packages entities members relations m m') :
    m'.findings ≤ m.findings + (entities + relations) := by
  have hentities := h.entities_le
  have hrelations := h.relations_le
  unfold findings
  omega

theorem findings_pos_iff (m : Model) : 0 < m.findings ↔
    m.classes ≠ [] ∨ m.interfaces ≠ [] ∨ m.enums ≠ [] ∨ m.relations ≠ [] := by
  simp only [← List.length_pos_iff, findings, entityCount]
  omega

end Model

namespace Markup

namespace Session

variable {s : Session} {line rest : List Char} {m : Model} {e : EntityRef} {p : Option String}

theorem Declares.telling (h : Declares s line m e rest) : isTelling line = true := by
  unfold isTelling
  cases h with
  | classes keyword read => simp [keyword]
  | interfaces keyword read => simp [keyword]
  | enums keyword read => simp [keyword]

theorem telling_of_relation? {r : Relation} (h : s.relation? line = some r) :
    isTelling line = true := by
  simp [isTelling, find?_of_relation? h]

/-- Packages and members may come from any line; what is counted comes from telling ones. -/
theorem Writes.findings_le (h : Writes s line m p) :
    m.findings ≤ s.model.findings + if isTelling line then 1 else 0 := by
  cases h with
  | skip => exact Nat.le_add_right _ _
  | closePackage => exact Nat.le_add_right _ _
  | openPackage =>
    exact (Model.adds_addPackage _ _).findings_le.trans (Nat.le_add_right _ _)
  | relation read =>
    rw [if_pos (telling_of_relation? read)]
    exact (Model.adds_addRelation _ _).findings_le
  | member => exact (Model.adds_addMember _ _ _).findings_le.trans (Nat.le_add_right _ _)
  | head declares =>
    rw [if_pos declares.telling]
    exact declares.adds.findings_le
  | headMember declares =>
    rw [if_pos declares.telling]
    exact (declares.adds.trans (Model.adds_addMember _ _ _)).findings_le

theorem findings_run (s : Session) (lines : List (List Char)) :
    (s.run lines).model.findings ≤
      s.model.findings + lines.countP fun line => isTelling (trim line) := by
  induction lines generalizing s with
  | nil => exact Nat.le_add_right _ _
  | cons line lines ih =>
    have hstep := (s.step_writes line).findings_le
    have hrest := ih (s.step line)
    rw [run_cons, List.countP_cons]
    omega

end Session

theorem canParse_iff_countP_pos (text : String) :
    canParse text = true ↔ 0 < (lines text.toList).countP fun line => isTelling (trim line) := by
  rw [canParse, List.any_eq_true, List.countP_pos_iff]

/-- No text is refused that has a class, an interface, an enumeration or a relation in its model. -/
theorem canParse_of_parse {text : String}
    (h : (parse text).classes ≠ [] ∨ (parse text).interfaces ≠ [] ∨ (parse text).enums ≠ [] ∨
      (parse text).relations ≠ []) : canParse text = true := by
  rw [canParse_iff_countP_pos]
  calc 0 < (parse text).findings := (Model.findings_pos_iff _).2 h
    _ ≤ Model.empty.findings + (lines text.toList).countP _ := Session.start.findings_run _
    _ = (lines text.toList).countP _ := Nat.zero_add _

/-- A relation behind a note, in a package without a name. -/
def aside : String := "package \x7b\nnote left\nclass A\nend note\n\x7d\nB::x ..> C : reads\n"

theorem canParse_of_parse_aside : (parse aside).relations = [⟨"B", "C", .dependency⟩] ∧
    canParse aside = true := by
  have hrelations : (parse aside).relations = [⟨"B", "C", .dependency⟩] := by decide
  have hne : (parse aside).relations ≠ [] := by simp [hrelations]
  exact ⟨hrelations, canParse_of_parse (.inr (.inr (.inr hne)))⟩

end Markup

end ClassDiagram
