import ClassDiagram.Proofs.Render

/-! Member lines that were written for a member are read as that member. A line is taken as content
of the body around it, whatever its name is, because a mark stands in front. -/

namespace ClassDiagram.Markup

open Text

/-- The characters that decide what kind of member a line holds and whether it ends the body. -/
def brackets : List Char := ['(', ')', '\x7b', '\x7d']

theorem bracket_plain {c : Char} (hc : c ∈ brackets) :
    isBlank c = false ∧ isWordChar c = false ∧ c ∉ marks := by
  simp only [brackets, List.mem_cons, List.not_mem_nil, or_false] at hc
  rcases hc with rfl | rfl | rfl | rfl
  all_goals exact ⟨rfl, rfl, by decide⟩

theorem Gap.count_eq_zero (g : Gap) {c : Char} (hc : c ∈ brackets) : g.chars.count c = 0 :=
  List.count_eq_zero_of_not_mem (not_mem_of_blank g.blank (bracket_plain hc).1)

theorem Gap.not_word (g : Gap) : ∀ c ∈ g.chars, isWordChar c = false :=
  fun c hc => isWordChar_of_isBlank (g.blank c hc)

/-- What stands in front of a member's name is no part of a word. -/
theorem Style.front_not_word (style : Style) :
    ∀ c ∈ style.mark :: style.afterMark.chars, isWordChar c = false :=
  List.forall_mem_cons.2 ⟨(mark_plain style.mark_mem).2, style.afterMark.not_word⟩

/-! ### Member lines -/

section members

variable {style : Style} {a : Attribute} {f : Method} {name : String} {raw rest : List Char}

/-- Only the last piece of a member line can have blanks at its end. -/
theorem trim_memberLine (hne : raw ≠ []) (hraw : raw.head?.any isBlank = false) :
    trim (style.memberLine name (rest ++ raw)) = style.memberLine name (rest ++ trimEnd raw) := by
  have happ (t : List Char) : style.afterMark.chars ++ (name.toList ++ (rest ++ t)) =
      (style.afterMark.chars ++ (name.toList ++ rest)) ++ t := by simp
  rw [Style.memberLine, trim_cons_of_not_blank (mark_plain style.mark_mem).1, happ,
    trimEnd_append hne hraw, Style.memberLine, happ]

theorem content_memberLine (style : Style) (name : String) (rest : List Char) :
    IsContent (style.memberLine name rest) := content_of_mark style.mark_mem _

theorem isSeparator_memberLine (hname : IsWord name.toList) :
    isSeparator (style.memberLine name rest) = false := by
  apply isSeparator_of_mark style.mark_mem
  intro h
  -- behind the mark stands a blank or the first letter of the name
  have hmem : '-' ∈ style.afterMark.chars ∨ '-' ∈ name.toList := by
    rw [← List.append_assoc, List.head?_append_of_ne_nil _ (by simp [hname.ne_nil])] at h
    exact List.mem_append.1 (List.mem_of_head? h)
  rcases hmem with h | h
  · exact not_mem_of_blank style.afterMark.blank rfl h
  · exact hname.not_mem rfl h

theorem count_memberLine (hname : IsWord name.toList) {c : Char} (hc : c ∈ brackets) :
    (style.memberLine name rest).count c = rest.count c := by
  obtain ⟨-, hword, hmark⟩ := bracket_plain hc
  have hne : style.mark ≠ c := fun h => hmark (h ▸ style.mark_mem)
  rw [Style.memberLine, List.count_cons_of_ne hne, List.count_append, List.count_append,
    Gap.count_eq_zero _ hc, List.count_eq_zero_of_not_mem (hname.not_mem hword), Nat.zero_add,
    Nat.zero_add]

/-- A sign between gaps adds no bracket to a text. -/
theorem count_sign {c d : Char} (hc : c ∈ brackets) (hd : d ∉ brackets) (g g' : Gap)
    (t : List Char) : (g.chars ++ d :: (g'.chars ++ t)).count c = t.count c := by
  have hne : d ≠ c := fun h => hd (h ▸ hc)
  rw [List.count_append, List.count_cons_of_ne hne, List.count_append, Gap.count_eq_zero _ hc,
    Gap.count_eq_zero _ hc, Nat.zero_add, Nat.zero_add]

theorem count_typed {c : Char} (hc : c ∈ brackets) (t : List Char) :
    (style.typed t).count c = t.count c := count_sign hc (by decide) _ _ t

theorem count_typeText {c : Char} (hc : c ∈ brackets) :
    (style.typeText a).count c = a.text.count c := by
  unfold Style.typeText Attribute.text
  cases a.defaultValue with
  | none => simp
  | some v => rw [List.count_append, count_sign hc (by decide), List.count_append, Option.getD_some]

theorem typeText_head (ha : a.Writable) : (style.typeText a).head? = a.type.toList.head? := by
  unfold Style.typeText
  split
  · rfl
  · rw [List.head?_append_of_ne_nil _ ha.ne_nil]

theorem typeText_ne_nil (ha : a.Writable) : style.typeText a ≠ [] := by
  unfold Style.typeText
  split
  · exact ha.ne_nil
  · simp [ha.ne_nil]

theorem readType_typeText (ha : a.Writable) :
    readType (trimEnd (style.typeText a)) = (a.type, a.defaultValue) := by
  unfold Style.typeText
  cases hd : a.defaultValue with
  | none =>
    rw [ha.trimmed.trimEnd_eq, readType_plain ha.trimmed ha.slashes ha.unmarked ha.equals,
      String.ofList_toList]
  | some v =>
    have hv := ha.default v hd
    dsimp only
    rw [readType_default style.beforeEquals.blank style.afterEquals.blank ha.ne_nil ha.trimmed
      hv.trimmed ha.slashes hv.slashes ha.unmarked ha.equals, String.ofList_toList,
      String.ofList_toList]

theorem typed_eq (style : Style) (t : List Char) : style.typed t = style.typed [] ++ t := by
  simp [Style.typed]

/-- The line of an attribute as it is read. -/
theorem trim_attributeLine (ha : a.Writable) : trim (style.attributeLine a) =
    style.memberLine a.name (style.typed (trimEnd (style.typeText a))) := by
  have hhead : (style.typeText a).head?.any isBlank = false := by
    rw [typeText_head ha, ha.trimmed.head]
  rw [Style.attributeLine, typed_eq, trim_memberLine (typeText_ne_nil ha) hhead, ← typed_eq]

theorem count_attributeLine (ha : a.Writable) {c : Char} (hc : c ∈ brackets) :
    (trim (style.attributeLine a)).count c = a.text.count c := by
  rw [trim_attributeLine ha, count_memberLine ha.name hc, count_typed hc,
    count_trimEnd (bracket_plain hc).1, count_typeText hc]

theorem member_attributeLine (ha : a.Writable) : IsMember (trim (style.attributeLine a)) where
  toIsContent := by
    rw [trim_attributeLine ha]
    exact content_memberLine style _ _
  open_body := closesBody_of_count (by
    rw [count_attributeLine ha (by decide), count_attributeLine ha (by decide), ha.braces])
  separator := by
    rw [trim_attributeLine ha]
    exact isSeparator_memberLine ha.name

theorem hasParentheses_attributeLine (ha : a.Writable) :
    hasParentheses (trim (style.attributeLine a)) = false := by
  have hmem {c : Char} (hc : c ∈ brackets) : c ∈ trim (style.attributeLine a) ↔ c ∈ a.text := by
    rw [← List.count_pos_iff, count_attributeLine ha hc, List.count_pos_iff]
  have h := ha.parentheses
  simpa [hasParentheses, hmem (c := '(') (by decide), hmem (c := ')') (by decide)] using h

theorem readAttribute_attributeLine (ha : a.Writable) :
    readAttribute (trim (style.attributeLine a)) = some a := by
  have htype : (style.typeText a).head?.any isBlank = false := by
    rw [typeText_head ha, ha.trimmed.head]
  have hhead := head?_trimEnd htype
  have hne : trimEnd (style.typeText a) ≠ [] := fun h => by
    rw [h, typeText_head ha, List.head?_nil, eq_comm, List.head?_eq_none_iff] at hhead
    exact ha.ne_nil hhead
  have hread := readAttribute_append style.front_not_word ha.name style.beforeColon.blank
    style.afterColon.blank hne (by rw [hhead, htype])
  rw [readType_typeText ha, String.ofList_toList] at hread
  rw [trim_attributeLine ha]
  exact hread

theorem trim_methodLine (hf : f.Writable) : trim (style.methodLine f) = style.methodLine f := by
  rw [Style.methodLine, typed_eq, ← List.cons_append, ← List.cons_append,
    trim_memberLine hf.ne_nil hf.trimmed.head, hf.trimmed.trimEnd_eq]

theorem member_methodLine (hf : f.Writable) : IsMember (style.methodLine f) where
  toIsContent := content_memberLine style _ _
  open_body := closesBody_of_count (by
    have hcount {c : Char} (hc : c ∈ brackets) (hne : c ≠ '(' ∧ c ≠ ')') :
        (style.methodLine f).count c = f.returnType.toList.count c := by
      rw [Style.methodLine, count_memberLine hf.name hc, List.count_cons_of_ne hne.1.symm,
        List.count_cons_of_ne hne.2.symm, count_typed hc]
    rw [hcount (by decide) (by decide), hcount (by decide) (by decide), hf.braces])
  separator := isSeparator_memberLine hf.name

theorem hasParentheses_methodLine : hasParentheses (style.methodLine f) = true := by
  simp [hasParentheses, Style.methodLine, Style.memberLine]

theorem readMethod_methodLine (hf : f.Writable) :
    Scan.leftmost readMethod (style.methodLine f) = some f := by
  have htype : returnType (style.typed f.returnType.toList) = f.returnType := by
    rw [Style.typed, returnType_append style.beforeColon.blank style.afterColon.blank hf.ne_nil
      hf.trimmed, String.ofList_toList]
  have hread := readMethod_append hf.name (style.typed f.returnType.toList)
  rw [htype, String.ofList_toList] at hread
  have hskip := leftmost_skip (fun _ => readMethod_none) style.front_not_word
    (t := f.name.toList ++ '(' :: ')' :: style.typed f.returnType.toList)
  exact hskip.trans (Scan.leftmost_of_some (by simp) hread)

theorem member_value {v : String} (hv : IsValue v) : IsMember v.toList where
  toIsContent := content_of_word hv.word hv.directive
  open_body := closesBody_of_count (by
    rw [List.count_eq_zero_of_not_mem (hv.word.not_mem rfl),
      List.count_eq_zero_of_not_mem (hv.word.not_mem rfl)])
  separator := by
    have hne : ∀ d ∈ ["..".toList, ['\x7b'], ['\x7d']], v.toList ≠ d := by
      have hd : ∀ d ∈ ["..".toList, ['\x7b'], ['\x7d']], ¬ IsWord d := by decide
      exact fun d hmem h => hd d hmem (h ▸ hv.word)
    simp only [isSeparator, hne _ (List.mem_cons_self), hne ['\x7b'] (by decide),
      hne ['\x7d'] (by decide), startsWith_word hv.word (p := "==".toList) (by decide),
      startsWith_word hv.word (p := "--".toList) (by decide), hv.separator, decide_false,
      Bool.or_false]

end members

end ClassDiagram.Markup
