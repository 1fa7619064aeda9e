import ClassDiagram.Markup.Session
import ClassDiagram.Proofs.Member

/-! Lines that none of the early questions claims. A session asks of every line whether it is a
directive, a comment, a note, a head or a brace before it reads the line as a member or a relation;
here are the lines for which each of these answers is no. -/

namespace ClassDiagram.Markup

open Text

variable {w t line : List Char} {c : Char}

/-- A line that says something: no directive, and no first line of a comment or of a note. -/
structure IsStatement (line : List Char) : Prop where
  ne_nil : line ≠ []
  directive : isDirective line = false
  comment : opensComment line = false
  note : opensNote line = false

/-- A statement that is no head and no brace. -/
structure IsContent (line : List Char) : Prop extends IsStatement line where
  package : isPackageLine line = false
  classes : isClassLine line = false
  interfaces : isInterfaceLine line = false
  enums : isEnumLine line = false
  ne_brace : line ≠ ['\x7d']

/-- Content that stays in the body around it and is not a mere decoration. -/
structure IsMember (line : List Char) : Prop extends IsContent line where
  open_body : closesBody line = false
  separator : isSeparator line = false

/-- A statement that a body does not take for a head or for its end. -/
structure IsBodyText (line : List Char) : Prop extends IsStatement line where
  classes : isClassLine line = false
  interfaces : isInterfaceLine line = false
  enums : isEnumLine line = false
  ne_brace : line ≠ ['\x7d']

namespace Session

variable {s : Session} {e : EntityRef}

theorem step_of_outside (hmode : s.mode = .outside) (h : IsStatement (trim line)) :
    s.step line = s.readStatement (trim line) := by
  simp [step, readLine, hmode, h.ne_nil, h.directive, h.comment, h.note]

theorem step_of_body (hmode : s.mode = .body e) (h : IsStatement (trim line)) :
    s.step line = s.readStatement (trim line) := by
  simp [step, readLine, hmode, h.ne_nil, h.directive, h.comment, h.note]

theorem readStatement_content (h : IsContent line) : s.readStatement line = s.readContent line := by
  simp [readStatement, h.package, h.classes, h.interfaces, h.enums, h.ne_brace]

theorem readStatement_package (hmode : s.mode = .outside) (h : isPackageLine line = true) :
    s.readStatement line = s.openPackage line := by
  rw [readStatement, if_pos ⟨hmode, h⟩]

theorem readStatement_class (hp : isPackageLine line = false) (hb : line ≠ ['\x7d'])
    (h : isClassLine line = true) : s.readStatement line = s.declareClass line := by
  rw [readStatement, if_neg (by simp [hp]), if_neg (by simp [hb]), if_pos h]

theorem readStatement_interface (hp : isPackageLine line = false) (hb : line ≠ ['\x7d'])
    (hc : isClassLine line = false) (h : isInterfaceLine line = true) :
    s.readStatement line = s.declareInterface line := by
  rw [readStatement, if_neg (by simp [hp]), if_neg (by simp [hb]), if_neg (by simp [hc]), if_pos h]

theorem readStatement_enum (hp : isPackageLine line = false) (hb : line ≠ ['\x7d'])
    (hc : isClassLine line = false) (hi : isInterfaceLine line = false)
    (h : isEnumLine line = true) : s.readStatement line = s.declareEnum line := by
  rw [readStatement, if_neg (by simp [hp]), if_neg (by simp [hb]), if_neg (by simp [hc]),
    if_neg (by simp [hi]), if_pos h]

theorem step_bodyText (hmode : s.mode = .body e) (h : IsBodyText (trim line)) :
    s.step line = s.readBody e (trim line) := by
  rw [step_of_body hmode h.toIsStatement]
  simp [readStatement, hmode, h.classes, h.interfaces, h.enums, h.ne_brace, readContent]

theorem step_member (hmode : s.mode = .body e) (h : IsMember (trim line)) :
    s.step line = { s with model := addMember s.model e (trim line) } := by
  have htext : IsBodyText (trim line) := ⟨h.toIsStatement, h.classes, h.interfaces, h.enums,
    h.ne_brace⟩
  rw [step_bodyText hmode htext]
  simp [hmode, readBody, h.open_body, h.separator, h.ne_nil]

theorem step_openBrace (hmode : s.mode = .declared e) (h : trim line = ['\x7b']) :
    s.step line = { s with mode := .body e } := by
  have hskip : isDirective ['\x7b'] = false ∧ opensComment ['\x7b'] = false ∧
      opensNote ['\x7b'] = false := by decide
  simp [step, readLine, hmode, h, hskip]

theorem step_relation {r : Relation} (hmode : s.mode = .outside) (h : IsContent (trim line))
    (hr : Relation.find? (trim line) = some r) :
    s.step line = { s with model := (s.model.addRelation r).1 } := by
  rw [step_of_outside hmode h.toIsStatement, readStatement_content h]
  simp [readContent, hmode, hr]

/-- Blanks around a line do not matter. -/
theorem step_trim {other : List Char} (h : trim line = trim other) :
    s.step line = s.step other := by
  unfold step
  rw [h]

end Session

/-! ### Lines with a mark -/

theorem content_of_mark (h : c ∈ marks) (t : List Char) : IsContent (c :: t) := by
  simp only [marks, List.mem_cons, List.not_mem_nil, or_false] at h
  rcases h with rfl | rfl | rfl | rfl
  all_goals
    refine ⟨⟨List.cons_ne_nil _ _, rfl, rfl, rfl⟩, rfl, rfl, rfl, rfl, ?_⟩
    simp

theorem isSeparator_of_mark (h : c ∈ marks) (ht : t.head? ≠ some '-') :
    isSeparator (c :: t) = false := by
  have hdash : startsWith ['-'] t = false := by
    cases t with
    | nil => rfl
    | cons x t =>
      have hx : x ≠ '-' := fun hx => ht (by rw [hx]; rfl)
      simp [startsWith, after?, hx.symm]
  simp only [marks, List.mem_cons, List.not_mem_nil, or_false] at h
  rcases h with rfl | rfl | rfl | rfl
  case inr.inl =>
    have heq : isSeparator ('-' :: t) = (startsWith ['-'] t || false) := rfl
    rw [heq, hdash, Bool.or_false]
  all_goals rfl

/-- Braces that come in equal numbers leave a body open. -/
theorem closesBody_of_count (h : line.count '\x7b' = line.count '\x7d') :
    closesBody line = false := by
  simp [closesBody, h]

theorem isDirective_false (h : ∀ d ∈ directives, startsWith d.toList line = false) :
    isDirective line = false := by
  simpa [isDirective] using h

theorem opensNote_false (h : startsWith "note ".toList line = false)
    (hf : startsWith "floating note ".toList line = false) : opensNote line = false := by
  have hnone {p : List Char} (hp : startsWith p line = false) : after? p line = none := by
    simpa [startsWith] using hp
  simp only [opensNote, List.any_cons, List.any_nil, hnone h, hnone hf, Bool.or_false]

theorem hasKeyword_false {k : String} (h : startsWith k.toList line = false) :
    hasKeyword k line = false := by
  have hnone : after? k.toList line = none := by simpa [startsWith] using h
  rw [hasKeyword, afterKeyword?, hnone]
  rfl

/-! ### Lines of one word -/

theorem startsWith_word {p : List Char} (hw : IsWord w) (hp : p.all isWordChar = false) :
    startsWith p w = false := by
  obtain ⟨c, hc, hword⟩ := List.all_eq_false.1 hp
  exact startsWith_eq_false_of_mem hc fun hcw => hword (hw.chars c hcw)

theorem afterKeyword?_word (k : String) (hw : IsWord w) : afterKeyword? k w = none := by
  unfold afterKeyword?
  cases h : after? k.toList w with
  | none => rfl
  | some rest =>
    cases rest with
    | nil => rfl
    | cons x rest =>
      have hx : x ∈ w := eq_of_after? h ▸ List.mem_append_right _ List.mem_cons_self
      simp [isBlank_of_isWordChar (hw.chars x hx)]

theorem hasKeyword_word (k : String) (hw : IsWord w) : hasKeyword k w = false := by
  rw [hasKeyword, afterKeyword?_word k hw, Option.isSome_none]

/-- A word alone is content, whichever keyword it may be. -/
theorem content_of_word (hw : IsWord w) (hs : startsWith "skinparam".toList w = false) :
    IsContent w := by
  refine ⟨⟨hw.ne_nil, isDirective_false fun d hd => ?_, startsWith_word hw (by decide),
    opensNote_false (startsWith_word hw (by decide)) (startsWith_word hw (by decide))⟩,
    ?_, ?_, hasKeyword_word _ hw, hasKeyword_word _ hw, ?_⟩
  · have hsort : ∀ d ∈ directives, d = "skinparam" ∨ d.toList.all isWordChar = false := by decide
    rcases hsort d hd with rfl | hd
    · exact hs
    · exact startsWith_word hw hd
  · rw [isPackageLine, hasKeyword_word _ hw, hasKeyword_word _ hw, Bool.or_false]
  · rw [isClassLine, afterKeyword?_word _ hw]
    exact hasKeyword_word _ hw
  · rintro rfl
    exact absurd hw (by decide)

/-! ### Lines of a word, a blank and more -/

/-- The words that make a line something else when a blank follows them. -/
def reserved : List String := ["class", "interface", "enum", "package", "namespace", "note", "hide"]

theorem afterKeyword?_spaced {k : String} (hk : IsWord k.toList) (hw : IsWord w) :
    afterKeyword? k (w ++ ' ' :: t) = if w = k.toList then some (' ' :: t) else none := by
  unfold afterKeyword?
  rw [after?_append_cons (hk.not_mem rfl)]
  split
  · next h =>
    have hself : after? k.toList k.toList = some [] := by simpa using after?_append k.toList []
    rw [h, hself]
    rfl
  · next h =>
    cases ha : after? k.toList w with
    | none => rfl
    | some rest =>
      have hrest := eq_of_after? ha
      cases rest with
      | nil => exact absurd (by simpa using hrest) h
      | cons x rest =>
        have hx : x ∈ w := hrest ▸ List.mem_append_right _ List.mem_cons_self
        simp [isBlank_of_isWordChar (hw.chars x hx)]

theorem hasKeyword_spaced {k : String} (hk : IsWord k.toList) (hw : IsWord w)
    (h : w ≠ k.toList) : hasKeyword k (w ++ ' ' :: t) = false := by
  rw [hasKeyword, afterKeyword?_spaced hk hw, if_neg h, Option.isSome_none]

/-- A text of more words than one is no front when the first word or what follows differs. -/
theorem startsWith_spaced {p q : List Char} (hp : ' ' ∉ p) (hw : IsWord w)
    (h : w ≠ p ∨ startsWith q t = false) : startsWith (p ++ ' ' :: q) (w ++ ' ' :: t) = false := by
  apply Bool.eq_false_iff.2
  intro hs
  obtain ⟨rfl, hq⟩ := (startsWith_cons_append_cons hp (hw.not_mem rfl) q t).1 hs
  rcases h with h | h
  · exact h rfl
  · simp [h] at hq

theorem startsWith_cons_false {p : List Char} (h : c ∉ t.head?) :
    startsWith (c :: p) t = false := by
  cases t with
  | nil => rfl
  | cons x t =>
    have hx : c ≠ x := fun hx => h (by simp [hx])
    simp [startsWith, after?, hx]

/-- The letters with which a longer keyword goes on behind its first word. -/
def continuing : List Char := ['c', 'n', 't']

theorem startsWith_continuing (ht : t.head?.any (· ∈ continuing) = false) (hc : c ∈ continuing)
    (q : List Char) : startsWith (c :: q) t = false :=
  startsWith_cons_false fun h => by
    rw [Option.mem_def.1 h, Option.any_some, decide_eq_true hc] at ht
    contradiction

theorem startsWith_spaced_word {p : List Char} (hw : IsWord w) (hp : p.all isWordChar = false)
    (hsp : ' ' ∉ p) (t : List Char) : startsWith p (w ++ ' ' :: t) = false := by
  rw [startsWith_append_cons hsp, startsWith_word hw hp]

theorem isDirective_spaced (hw : IsWord w) (hs : startsWith "skinparam".toList w = false)
    (hh : w ≠ "hide".toList) (ht : t.head?.any (· ∈ continuing) = false) :
    isDirective (w ++ ' ' :: t) = false := by
  have hfront {p : List Char} (hp : p.all isWordChar = false) (hsp : ' ' ∉ p) :
      startsWith p (w ++ ' ' :: t) = false := startsWith_spaced_word hw hp hsp t
  have hto (q : List Char) : startsWith ('t' :: q) t = false :=
    startsWith_continuing ht (by decide) q
  apply isDirective_false
  simp only [directives, List.forall_mem_cons, List.not_mem_nil, false_imp_iff, implies_true,
    and_true]
  refine ⟨hfront (by decide) (by decide), hfront (by decide) (by decide),
    hfront (by decide) (by decide), ?_, ?_, ?_, ?_, hfront (by decide) (by decide)⟩
  · rwa [startsWith_append_cons (by decide)]
  · exact startsWith_spaced (p := "left".toList) (by decide) hw (.inr (hto _))
  · exact startsWith_spaced (p := "top".toList) (by decide) hw (.inr (hto _))
  · exact startsWith_spaced (p := "hide".toList) (by decide) hw (.inl hh)

theorem isClassLine_spaced (hw : IsWord w) (hc : w ≠ "class".toList)
    (hb : t.head?.any isBlank = false) (ht : t.head?.any (· ∈ continuing) = false) :
    isClassLine (w ++ ' ' :: t) = false := by
  rw [isClassLine, afterKeyword?_spaced (by decide) hw]
  split
  · next rest h =>
    split at h
    · rw [← Option.some.inj h, trimStart_space hb]
      exact hasKeyword_false (startsWith_continuing ht (by decide) _)
    · contradiction
  · exact hasKeyword_spaced (by decide) hw hc

theorem ne_brace_of_spaced : w ++ ' ' :: t ≠ ['\x7d'] := by
  intro h
  have hmem : ' ' ∈ w ++ ' ' :: t := List.mem_append_right w List.mem_cons_self
  rw [h] at hmem
  exact absurd hmem (by decide)

/-- A word that is not reserved, a blank, and something that starts with none of the letters which
would make a longer keyword of the word. -/
theorem content_of_spaced (hw : IsWord w) (hr : String.ofList w ∉ reserved)
    (hs : startsWith "skinparam".toList w = false) (hb : t.head?.any isBlank = false)
    (ht : t.head?.any (· ∈ continuing) = false) : IsContent (w ++ ' ' :: t) := by
  have hne : ∀ k ∈ reserved, IsWord k.toList ∧ w ≠ k.toList := by
    intro k hk
    have hword : ∀ k ∈ reserved, IsWord k.toList := by decide
    refine ⟨hword k hk, ?_⟩
    rintro rfl
    exact hr (by rwa [String.ofList_toList])
  have hkey : ∀ k ∈ reserved, hasKeyword k (w ++ ' ' :: t) = false := fun k hk =>
    hasKeyword_spaced (hne k hk).1 hw (hne k hk).2
  refine ⟨⟨by simp, isDirective_spaced hw hs (hne "hide" (by decide)).2 ht,
    startsWith_spaced_word hw (by decide) (by decide) t, opensNote_false ?_ ?_⟩, ?_,
    isClassLine_spaced hw (hne "class" (by decide)).2 hb ht, hkey "interface" (by decide),
    hkey "enum" (by decide), ne_brace_of_spaced⟩
  · exact startsWith_spaced (p := "note".toList) (by decide) hw (.inl (hne "note" (by decide)).2)
  · exact startsWith_spaced (p := "floating".toList) (by decide) hw
      (.inr (startsWith_continuing ht (by decide) _))
  · rw [isPackageLine, hkey "package" (by decide), hkey "namespace" (by decide), Bool.or_false]

end ClassDiagram.Markup
