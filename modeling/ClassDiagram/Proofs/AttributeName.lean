import ClassDiagram.Proofs.MemberLine
import ClassDiagram.Proofs.Silent

/-! Names of attributes. In a body a line with a name, a colon and a type is asked all the early
questions before it is read as a member. Its colon keeps it from being a note; only a directive, a
divider or the head of a declaration can take it away, and few names make it one of these. -/

namespace ClassDiagram.Markup

open Text

variable {n type : List Char}

def typedLine (name type : List Char) : List Char := name ++ ' ' :: ':' :: ' ' :: type

/-- The names that are the keyword of a declaration when a blank follows. -/
def declaring : List (List Char) := ["class".toList, "interface".toList, "enum".toList]

/-- Whether a name makes its line a directive. -/
def startsDirective (name : List Char) : Bool :=
  name = "hide".toList || startsWith "skinparam".toList name

/-- Whether a name makes its line a divider of a body. -/
def startsDivider (name : List Char) : Bool := startsWith "__".toList name

theorem trim_typedLine (hn : IsWord n) (ht : IsWord type) :
    trim (typedLine n type) = typedLine n type := by
  have hsplit : typedLine n type = (n ++ " : ".toList) ++ type := by
    rw [typedLine, List.append_assoc]
    rfl
  have hhead : (typedLine n type).head?.any isBlank = false := hn.head_not_blank _
  rw [trim, trimStart_of_head hhead, hsplit, trimEnd_append ht.ne_nil ht.trimmed.head,
    ht.trimmed.trimEnd_eq]

theorem not_mem_typedLine {c : Char} (hn : IsWord n) (ht : IsWord type)
    (hc : isWordChar c = false) (hc' : c ∉ " : ".toList) : c ∉ typedLine n type := by
  have hsigns : c ≠ ' ' ∧ c ≠ ':' := ⟨fun h => hc' (by simp [h]), fun h => hc' (by simp [h])⟩
  simp [typedLine, hn.not_mem hc, ht.not_mem hc, hsigns]

/-! ### The early questions -/

theorem opensNote_typedLine (hn : IsWord n) (type : List Char) :
    opensNote (typedLine n type) = false := by
  by_cases hnote : n = "note".toList
  · -- The colon stands where the text of a note would start.
    subst hnote
    rfl
  · apply opensNote_false
    · exact startsWith_spaced (p := "note".toList) (by decide) hn (.inl hnote)
    · exact startsWith_spaced (p := "floating".toList) (by decide) hn (.inr rfl)

theorem isDirective_typedLine (hn : IsWord n) (type : List Char) :
    isDirective (typedLine n type) = startsDirective n := by
  by_cases hhide : n = "hide".toList
  · subst hhide
    rfl
  · cases hskin : startsWith "skinparam".toList n with
    | false =>
      have hline : isDirective (typedLine n type) = false := isDirective_spaced hn hskin hhide rfl
      rw [hline, startsDirective, hskin, decide_eq_false hhide]
      rfl
    | true =>
      have hline : startsWith "skinparam".toList (typedLine n type) = true := by
        rw [typedLine, startsWith_append_cons (by decide), hskin]
      have hdirective : isDirective (typedLine n type) = true :=
        List.any_eq_true.2 ⟨"skinparam", by decide, hline⟩
      rw [hdirective, startsDirective, hskin, Bool.or_true]

theorem isSeparator_typedLine (hn : IsWord n) (ht : IsWord type) :
    isSeparator (typedLine n type) = startsDivider n := by
  have hsign {c : Char} (hc : isWordChar c = false) (hc' : c ∉ " : ".toList) (rest : List Char) :
      typedLine n type ≠ c :: rest := by
    intro h
    exact not_mem_typedLine hn ht hc hc' (h ▸ List.mem_cons_self)
  have hfront {p : List Char} (hp : p.all isWordChar = false) (hsp : ' ' ∉ p) :
      startsWith p (typedLine n type) = false := startsWith_spaced_word hn hp hsp _
  have hdots : typedLine n type ≠ "..".toList := hsign (c := '.') rfl (by decide) _
  have hopen : typedLine n type ≠ ['\x7b'] := hsign rfl (by decide) _
  have hclose : typedLine n type ≠ ['\x7d'] := hsign rfl (by decide) _
  have hdivider : startsWith "__".toList (typedLine n type) = startsDivider n := by
    rw [typedLine, startsWith_append_cons (by decide), startsDivider]
  simp only [isSeparator, hdots, hopen, hclose, hfront (p := "==".toList) (by decide) (by decide),
    hfront (p := "--".toList) (by decide) (by decide), hdivider, decide_false, Bool.false_or]

/-- A typed line that is neither a directive nor a head is body text. -/
theorem bodyText_typedLine (hn : IsWord n) (hd : n ∉ declaring)
    (hs : startsDirective n = false) (type : List Char) : IsBodyText (typedLine n type) := by
  have hkey {k : String} (hk : k.toList ∈ declaring) : n ≠ k.toList := fun h => hd (h ▸ hk)
  have hword {k : String} (hw : IsWord k.toList) (hk : k.toList ∈ declaring) :
      hasKeyword k (typedLine n type) = false := hasKeyword_spaced hw hn (hkey hk)
  exact {
    ne_nil := by simp [typedLine]
    directive := (isDirective_typedLine hn type).trans hs
    comment := startsWith_spaced_word hn (by decide) (by decide) _
    note := opensNote_typedLine hn type
    classes := isClassLine_spaced hn (hkey (by decide)) rfl rfl
    interfaces := hword (by decide) (by decide)
    enums := hword (by decide) (by decide)
    ne_brace := ne_brace_of_spaced }

/-! ### The attribute -/

theorem readType_word (ht : IsWord type) : readType type = (String.ofList type, none) := by
  have hslash : contains "//".toList type = false := by
    refine Bool.eq_false_iff.2 fun h => ht.not_mem (c := '/') rfl ?_
    exact (contains_iff.1 h).subset (by decide)
  have hmark : type.head?.any (· ∈ marks) = false := by
    rw [Option.any_eq_false]
    intro c hc
    have hword : isWordChar c = true := ht.chars c (List.mem_of_mem_head? hc)
    refine decide_eq_false fun hmark => ?_
    rw [(mark_plain hmark).2] at hword
    contradiction
  exact readType_plain ht.trimmed hslash hmark (ht.not_mem rfl)

theorem readAttribute_typedLine (hn : IsWord n) (ht : IsWord type) :
    readAttribute (typedLine n type) = some ⟨String.ofList n, String.ofList type, none⟩ := by
  have hread := readAttribute_append (a := []) (List.forall_mem_nil _) hn blank_space blank_space
    ht.ne_nil ht.trimmed.head
  rw [readType_word ht] at hread
  exact hread

end ClassDiagram.Markup

namespace ClassDiagram.Model

/-- Adds an attribute to the entity at a place; enumerations have none. -/
def addAttributeTo (m : Model) (e : Markup.EntityRef) (a : Attribute) : Model :=
  match e.kind with
  | .classes => m.addAttribute e.index a
  | .interfaces => m.addInterfaceAttribute e.index a
  | .enums => m

end ClassDiagram.Model

namespace ClassDiagram.Markup.Session

open Text

variable {s : Session} {e : EntityRef} {n type : List Char}

theorem addMember_typedLine (hk : e.kind ≠ .enums) (hn : IsWord n) (ht : IsWord type) (m : Model) :
    addMember m e (typedLine n type) =
      m.addAttributeTo e ⟨String.ofList n, String.ofList type, none⟩ := by
  have hparentheses : hasParentheses (typedLine n type) = false := by
    have hopen : '(' ∉ typedLine n type := not_mem_typedLine hn ht rfl (by decide)
    simp [hasParentheses, hopen]
  unfold addMember Model.addAttributeTo
  cases hkind : e.kind with
  | classes => simp [hparentheses, readAttribute_typedLine hn ht]
  | interfaces => simp [hparentheses, readAttribute_typedLine hn ht]
  | enums => contradiction

theorem closesBody_typedLine (hn : IsWord n) (ht : IsWord type) :
    closesBody (typedLine n type) = false := by
  apply closesBody_of_count
  rw [List.count_eq_zero_of_not_mem (not_mem_typedLine hn ht rfl (by decide)),
    List.count_eq_zero_of_not_mem (not_mem_typedLine hn ht rfl (by decide))]

/--
In the body of a class or an interface a typed line appends its attribute, and does nothing else,
unless its name makes it a directive or a divider; such a line leaves the session as it is.
-/
theorem step_typedLine (hmode : s.mode = .body e) (hk : e.kind ≠ .enums) (hn : IsWord n)
    (ht : IsWord type) (hd : n ∉ declaring) :
    s.step (typedLine n type) =
      if startsDirective n || startsDivider n then s
      else { s with
        model := s.model.addAttributeTo e ⟨String.ofList n, String.ofList type, none⟩ } := by
  have htrim := trim_typedLine hn ht
  cases hdirective : startsDirective n with
  | true =>
    have hopen : s.mode.saved? = none := by rw [hmode]; rfl
    have hline : isDirective (trim (typedLine n type)) = true := by
      rw [htrim, isDirective_typedLine hn, hdirective]
    exact run_silent hopen (.directive hline)
  | false =>
    have htext := bodyText_typedLine hn hd hdirective type
    have hstep : s.step (typedLine n type) = s.readBody e (typedLine n type) := by
      rw [step_bodyText hmode (by rwa [htrim]), htrim]
    have hopen := closesBody_typedLine hn ht
    have hcontent : content (typedLine n type) = typedLine n type := by simp [content, hopen]
    rw [hstep, readBody_eq, hcontent, isSeparator_typedLine hn ht, addMember_typedLine hk hn ht,
      hopen, decide_eq_false htext.ne_nil, ← hmode]
    cases startsDivider n <;> rfl

def inClass : Session := start.step "class A \x7b".toList

theorem step_typedLine_inClass : inClass.mode = .body ⟨.classes, 0⟩ ∧
    inClass.step "note : String".toList =
      { inClass with model := inClass.model.addAttribute 0 ⟨"note", "String", none⟩ } ∧
    inClass.step "__v : Int".toList = inClass := by
  have hmode : inClass.mode = .body ⟨.classes, 0⟩ := by decide
  have hnote := step_typedLine hmode (by decide) (show IsWord "note".toList by decide)
    (show IsWord "String".toList by decide) (by decide)
  have hdivider := step_typedLine hmode (by decide) (show IsWord "__v".toList by decide)
    (show IsWord "Int".toList by decide) (by decide)
  exact ⟨hmode, hnote, hdivider⟩

/-- Not every name is that of an attribute; a divider is none. -/
theorem not_step_typedLine : ¬ ∀ (s : Session) (e : EntityRef) (n type : List Char),
    s.mode = .body e → e.kind ≠ .enums → IsWord n → IsWord type →
      s.step (typedLine n type) = { s with
        model := s.model.addAttributeTo e ⟨String.ofList n, String.ofList type, none⟩ } := by
  intro h
  have hid := h inClass ⟨.classes, 0⟩ "__id".toList "Int".toList (by decide) (by decide) (by decide)
    (by decide)
  exact absurd hid (by decide)

end ClassDiagram.Markup.Session
