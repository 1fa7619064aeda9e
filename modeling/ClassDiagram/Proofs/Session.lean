import ClassDiagram.Markup.Session

/-! What the functions of a session can do, each said once: a member line adds at most one member to
its entity, body text leaves the rest of the session alone, and a declaration adds its entity before
any body text is read. -/

namespace ClassDiagram

/-- A change at a place of the second of two lists. -/
theorem modify_append_right {α : Type} (l l' : List α) (i : Nat) (f : α → α) :
    (l ++ l').modify (l.length + i) f = l ++ l'.modify i f := by
  induction l with
  | nil => simp
  | cons x l ih => simpa [Nat.succ_add] using ih

end ClassDiagram

namespace ClassDiagram.Markup.Session

open Text

theorem run_nil (s : Session) : s.run [] = s := rfl

theorem run_cons (s : Session) (line : List Char) (lines : List (List Char)) :
    s.run (line :: lines) = (s.step line).run lines := rfl

theorem run_append (s : Session) (lines more : List (List Char)) :
    s.run (lines ++ more) = (s.run lines).run more := List.foldl_append

theorem addMember_cases (m : Model) (e : EntityRef) (line : List Char) :
    addMember m e line = m ∨
    (e.kind = .classes ∧ hasParentheses line ∧
      ∃ f, Scan.leftmost readMethod line = some f ∧ addMember m e line = m.addMethod e.index f) ∨
    (e.kind = .classes ∧ ¬ hasParentheses line ∧
      ∃ a, readAttribute line = some a ∧ addMember m e line = m.addAttribute e.index a) ∨
    (e.kind = .interfaces ∧ ¬ hasParentheses line ∧
      ∃ a, readAttribute line = some a ∧ addMember m e line = m.addInterfaceAttribute e.index a) ∨
    (e.kind = .enums ∧
      ∃ v, readValue line = some v ∧ addMember m e line = m.addValue e.index v) := by
  unfold addMember
  split
  · next hk =>
    by_cases hp : hasParentheses line
    · rw [if_pos hp]
      cases Scan.leftmost readMethod line with
      | none => exact .inl rfl
      | some f => exact .inr (.inl ⟨hk, hp, f, rfl, rfl⟩)
    · rw [if_neg hp]
      cases readAttribute line with
      | none => exact .inl rfl
      | some a => exact .inr (.inr (.inl ⟨hk, hp, a, rfl, rfl⟩))
  · next hk =>
    by_cases hp : hasParentheses line
    · exact .inl (if_pos hp)
    · rw [if_neg hp]
      cases readAttribute line with
      | none => exact .inl rfl
      | some a => exact .inr (.inr (.inr (.inl ⟨hk, hp, a, rfl, rfl⟩)))
  · next hk =>
    cases readValue line with
    | none => exact .inl rfl
    | some v => exact .inr (.inr (.inr (.inr ⟨hk, v, rfl, rfl⟩)))

/-- The part of a body line that is read as a member. -/
def content (line : List Char) : List Char := if closesBody line then trim line.dropLast else line

theorem readBody_eq (s : Session) (e : EntityRef) (line : List Char) :
    s.readBody e line = { s with
      model := if content line = [] || isSeparator (content line) then s.model
        else addMember s.model e (content line)
      mode := if closesBody line then .outside else .body e } := rfl

theorem readBody_model (s : Session) (e : EntityRef) (line : List Char) :
    (s.readBody e line).model = s.model ∨
      (s.readBody e line).model = addMember s.model e (content line) := by
  rw [readBody_eq]
  dsimp only
  split
  · exact .inl rfl
  · exact .inr rfl

theorem readBody_mode (s : Session) (e : EntityRef) (line : List Char) :
    (s.readBody e line).mode = .outside ∨ (s.readBody e line).mode = .body e := by
  rw [readBody_eq]
  dsimp only
  split
  · exact .inl rfl
  · exact .inr rfl

theorem enter_cases (s : Session) (e : EntityRef) (rest : List Char) :
    s.enter e rest = { s with mode := .declared e } ∨ s.enter e rest = { s with mode := .body e } ∨
      ∃ inner, s.enter e rest = s.readBody e inner := by
  unfold enter
  split
  · exact .inl rfl
  · dsimp only
    split
    · exact .inr (.inl rfl)
    · exact .inr (.inr ⟨_, rfl⟩)

end ClassDiagram.Markup.Session
