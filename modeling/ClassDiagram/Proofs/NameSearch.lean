import ClassDiagram.Model.Filter
import ClassDiagram.Proofs.Text

/-! Looking for names by a part of them. Both are put in lower case before they are compared, and all
characters but one have the same lower-case form wherever they stand. A capital sigma has another form
at the end of a word, and what ends a part of a name need not end a word of the name. -/

namespace ClassDiagram

namespace Text

variable {passed passed' s t behind behind' front piece back : List Char} {c : Char}

/-! ### The form of a character -/

/-- Whether a capital sigma between two texts ends a word. -/
def endsWord (before behind : List Char) : Bool := meetsCased before.reverse && !meetsCased behind

/-- The lower-case form of a character between two texts, the first of which is given backwards. -/
def form (passed : List Char) (c : Char) (behind : List Char) : List Char :=
  if c = 'Σ' then if endsWord passed.reverse behind then ['ς'] else ['σ'] else lowerChar c

theorem lowerAfter_cons (passed : List Char) (c : Char) (t : List Char) :
    lowerAfter passed (c :: t) = form passed c t ++ lowerAfter (c :: passed) t := by
  rw [lowerAfter, form, endsWord, List.reverse_reverse]

theorem form_eq_iff : form passed c behind = form passed' c behind' ↔
    (c = 'Σ' → endsWord passed.reverse behind = endsWord passed'.reverse behind') := by
  unfold form
  by_cases hc : c = 'Σ'
  · cases endsWord passed.reverse behind <;> cases endsWord passed'.reverse behind' <;> simp [hc]
  · simp [hc]

/-- The sigma at the end of a word as the one inside it. -/
def plainSigma (c : Char) : Char := if c = 'ς' then 'σ' else c

def plainForm (c : Char) : List Char := (form [] c []).map plainSigma

theorem map_plainSigma_form (passed : List Char) (c : Char) (behind : List Char) :
    (form passed c behind).map plainSigma = plainForm c := by
  unfold plainForm form
  by_cases hc : c = 'Σ'
  · rw [if_pos hc, if_pos hc]
    split <;> split <;> rfl
  · rw [if_neg hc, if_neg hc]

theorem length_form (passed passed' : List Char) (c : Char) (behind behind' : List Char) :
    (form passed c behind).length = (form passed' c behind').length := by
  have hplain := (map_plainSigma_form passed c behind).trans
    (map_plainSigma_form passed' c behind').symm
  simpa using congrArg List.length hplain

/-! ### The form of a piece -/

/-- But for the form of sigmas, texts are put in lower case one character after the other. -/
theorem map_plainSigma_lowerAfter (passed s : List Char) :
    (lowerAfter passed s).map plainSigma = s.flatMap plainForm := by
  induction s generalizing passed with
  | nil => rfl
  | cons c s ih =>
    rw [lowerAfter_cons, List.map_append, ih, map_plainSigma_form, List.flatMap_cons]

theorem plainSigma_lower_infix (h : piece <:+: s) :
    (lower piece).map plainSigma <:+: (lower s).map plainSigma := by
  obtain ⟨front, back, rfl⟩ := h
  simp only [lower, map_plainSigma_lowerAfter, List.flatMap_append]
  exact List.infix_append _ _ _

theorem length_lowerAfter (passed passed' s : List Char) :
    (lowerAfter passed s).length = (lowerAfter passed' s).length := by
  have hplain := (map_plainSigma_lowerAfter passed s).trans
    (map_plainSigma_lowerAfter passed' s).symm
  simpa using congrArg List.length hplain

theorem drop_lowerAfter (passed s t : List Char) :
    (lowerAfter passed (s ++ t)).drop (lower s).length = lowerAfter (s.reverse ++ passed) t := by
  induction s generalizing passed with
  | nil => rfl
  | cons c s ih =>
    have hlength : (lower (c :: s)).length = (form passed c (s ++ t)).length + (lower s).length := by
      rw [lower, lowerAfter_cons, List.length_append, length_form [] passed c s (s ++ t),
        length_lowerAfter [c] [] s, lower]
    rw [List.cons_append, lowerAfter_cons, hlength, List.drop_length_add_append, ih]
    simp

theorem forall_split_cons {P : List Char → List Char → Prop} :
    (∀ before behind, c :: s = before ++ 'Σ' :: behind → P before behind) ↔
      (c = 'Σ' → P [] s) ∧ ∀ before behind, s = before ++ 'Σ' :: behind → P (c :: before) behind := by
  constructor
  · intro h
    refine ⟨fun hc => h [] s (by rw [hc, List.nil_append]), fun before behind hs => ?_⟩
    exact h (c :: before) behind (by rw [hs, List.cons_append])
  · rintro ⟨hfirst, hrest⟩ before behind hs
    cases before with
    | nil =>
      obtain ⟨hc, rfl⟩ := List.cons.inj hs
      exact hfirst hc
    | cons x before =>
      obtain ⟨rfl, hrests⟩ := List.cons.inj hs
      exact hrest before behind hrests

/-- A text has the form of the front of another one, which starts with it, just if every capital sigma
in it has the same form in both. -/
theorem lowerAfter_prefix_iff : lowerAfter passed s <+: lowerAfter passed' (s ++ t) ↔
    ∀ before behind, s = before ++ 'Σ' :: behind →
      endsWord (passed.reverse ++ before) behind =
        endsWord (passed'.reverse ++ before) (behind ++ t) := by
  induction s generalizing passed passed' with
  | nil => simp [lowerAfter]
  | cons c s ih =>
    rw [List.cons_append, lowerAfter_cons, lowerAfter_cons,
      List.prefix_append_inj_of_length_eq (length_form passed passed' c s (s ++ t)), form_eq_iff, ih,
      forall_split_cons]
    simp

/-- Every capital sigma of a piece of a text ends a word of the piece just if it ends one of the whole
text. -/
def SigmasKeep (front piece back : List Char) : Prop :=
  ∀ before behind, piece = before ++ 'Σ' :: behind →
    endsWord before behind = endsWord (front ++ before) (behind ++ back)

theorem sigmasKeep_of_not_mem (h : 'Σ' ∉ piece) : SigmasKeep front piece back := by
  rintro before behind rfl
  simp at h

/-- At the place of a piece in a text, the form of the text is the form of the piece just if its
capital sigmas keep their forms. -/
theorem lower_prefix_drop_iff : lower piece <+:
      (lower (front ++ (piece ++ back))).drop (lower front).length ↔ SigmasKeep front piece back := by
  have hdrop : (lower (front ++ (piece ++ back))).drop (lower front).length =
      lowerAfter front.reverse (piece ++ back) := by
    rw [← List.append_nil front.reverse]
    exact drop_lowerAfter [] front (piece ++ back)
  rw [hdrop, lower, lowerAfter_prefix_iff]
  simp [SigmasKeep]

end Text

/-! ### Filters -/

namespace Filter

/-- A filter lets a name pass, whatever the package, and keeps every entity that has it. -/
structure Keeps (f : Filter) (name : String) : Prop where
  accepts : ∀ package, f.accepts name package = true
  classes : ∀ (m : Model), ∀ c ∈ m.classes, c.name = name → c ∈ (m.filter f).classes
  interfaces : ∀ (m : Model), ∀ i ∈ m.interfaces, i.name = name → i ∈ (m.filter f).interfaces
  enums : ∀ (m : Model), ∀ e ∈ m.enums, e.name = name → e ∈ (m.filter f).enums

open Text

variable {name search : String} {front back : List Char}

theorem keeps_of_lower_infix (h : lower search.toList <:+: lower name.toList) :
    (Filter.mk none search).Keeps name := by
  have haccepts (package : Option String) : (Filter.mk none search).accepts name package = true := by
    simp [accepts, acceptsPackage, acceptsName, contains_iff.2 h]
  refine ⟨haccepts, ?_, ?_, ?_⟩
  · rintro m c hc rfl
    exact List.mem_filter.2 ⟨hc, haccepts c.package⟩
  · rintro m i hi rfl
    exact List.mem_filter.2 ⟨hi, haccepts i.package⟩
  · rintro m e he rfl
    exact List.mem_filter.2 ⟨he, haccepts e.package⟩

/-- A search for a part of a name finds the name if every capital sigma of the part ends a word there
just if it ends one of the name, as it does when the part has none. Otherwise the part is not found in
its own place. But for the form of sigmas, it is always there. -/
theorem keeps_part (hname : name.toList = front ++ (search.toList ++ back)) :
    (SigmasKeep front search.toList back → (Filter.mk none search).Keeps name) ∧
    ('Σ' ∉ search.toList → (Filter.mk none search).Keeps name) ∧
    (lower search.toList <+: (lower name.toList).drop (lower front).length ↔
      SigmasKeep front search.toList back) ∧
    (lower search.toList).map plainSigma <:+: (lower name.toList).map plainSigma := by
  have hplace : lower search.toList <+: (lower name.toList).drop (lower front).length ↔
      SigmasKeep front search.toList back := by
    rw [hname]
    exact lower_prefix_drop_iff
  have hkeeps (h : SigmasKeep front search.toList back) : (Filter.mk none search).Keeps name :=
    keeps_of_lower_infix ((hplace.2 h).isInfix.trans (List.drop_suffix _ _).isInfix)
  refine ⟨hkeeps, fun hnone => hkeeps (sigmasKeep_of_not_mem hnone), hplace, ?_⟩
  refine plainSigma_lower_infix ⟨front, back, ?_⟩
  rw [hname, List.append_assoc]

/-- A part that ends with a word of the name. -/
theorem keeps_part_wordEnd :
    "ΟΔΟΣ ΑΒ".toList = "Ο".toList ++ ("ΔΟΣ".toList ++ " ΑΒ".toList) ∧
    (Filter.mk none "ΔΟΣ").Keeps "ΟΔΟΣ ΑΒ" := by
  have hname : "ΟΔΟΣ ΑΒ".toList = "Ο".toList ++ ("ΔΟΣ".toList ++ " ΑΒ".toList) := by decide
  obtain ⟨hkeeps, -, hplace, -⟩ := keeps_part hname
  exact ⟨hname, hkeeps (hplace.1 (by decide +kernel))⟩

/-- The last letter of a name is a part of it, but alone it ends no word. -/
theorem not_keeps_part : ¬ ∀ name search : String, search.toList <:+: name.toList →
    (Filter.mk none search).Keeps name := by
  intro h
  have haccepts := (h "ΟΔΟΣ" "Σ" ⟨"ΟΔΟ".toList, [], by decide⟩).accepts none
  revert haccepts
  decide +kernel

end Filter

end ClassDiagram
