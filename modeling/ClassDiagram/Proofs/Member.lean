import ClassDiagram.Markup.Member
import ClassDiagram.Proofs.Scan

/-! What the member readers make of a line built from a name, a colon and what follows it, with any
blanks between them. -/

namespace ClassDiagram.Markup

open Text

variable {a b b' name raw : List Char}

theorem head_not_word (hb : ∀ c ∈ b, isBlank c = true) {c : Char} (hc : isWordChar c = false)
    (t : List Char) : (b ++ c :: t).head?.any isWordChar = false := by
  cases b with
  | nil => simpa using hc
  | cons x b =>
    simpa using isWordChar_of_isBlank (hb x List.mem_cons_self)

theorem afterColon?_append (hb : ∀ c ∈ b, isBlank c = true) (t : List Char) :
    afterColon? (b ++ ':' :: t) = some (trimStart t) := by
  rw [afterColon?, trimStart_append hb, trimStart_of_head (by rfl)]
  simp [after?]

theorem trimStart_append_of_head (hb : ∀ c ∈ b, isBlank c = true)
    (hraw : raw.head?.any isBlank = false) : trimStart (b ++ raw) = raw := by
  rw [trimStart_append hb, trimStart_of_head hraw]

/-- A reader that starts with a word passes over everything in front of the first one. -/
theorem leftmost_skip {α : Type} {read : List Char → Option α} {t : List Char}
    (hread : ∀ t, t.head?.any isWordChar = false → read t = none)
    (ha : ∀ c ∈ a, isWordChar c = false) :
    Scan.leftmost read (a ++ t) = Scan.leftmost read t := by
  refine Scan.leftmost_append_of_none fun s hs hsa => hread _ ?_
  cases s with
  | nil => contradiction
  | cons x s => simpa using ha x (hsa.subset List.mem_cons_self)

/-! ### Attributes -/

theorem readTyped_none {t : List Char} (ht : t.head?.any isWordChar = false) :
    readTyped t = none := by
  have hword : Scan.word t = none := Scan.run_none ht
  simp [readTyped, hword]

theorem readTyped_append (hname : IsWord name) (hb : ∀ c ∈ b, isBlank c = true)
    (hb' : ∀ c ∈ b', isBlank c = true) (hne : raw ≠ []) (hraw : raw.head?.any isBlank = false) :
    readTyped (name ++ (b ++ ':' :: (b' ++ raw))) = some (name, raw) := by
  have hword := Scan.word_append hname (head_not_word hb (c := ':') rfl (b' ++ raw))
  simp [readTyped, hword, afterColon?_append hb, trimStart_append_of_head hb' hraw, hne]

theorem readAttribute_append (ha : ∀ c ∈ a, isWordChar c = false) (hname : IsWord name)
    (hb : ∀ c ∈ b, isBlank c = true) (hb' : ∀ c ∈ b', isBlank c = true) (hne : raw ≠ [])
    (hraw : raw.head?.any isBlank = false) :
    readAttribute (a ++ (name ++ (b ++ ':' :: (b' ++ raw)))) =
      some ⟨String.ofList name, (readType raw).1, (readType raw).2⟩ := by
  have hcolon : ':' ∈ a ++ (name ++ (b ++ ':' :: (b' ++ raw))) := by simp
  have hread := Scan.leftmost_of_some (by simp) (readTyped_append hname hb hb' hne hraw)
  rw [readAttribute, if_pos hcolon, leftmost_skip (fun _ => readTyped_none) ha, hread]
  rfl

/-- The marks of visibility. -/
def marks : List Char := ['+', '-', '#', '~']

theorem mark_plain {c : Char} (hc : c ∈ marks) : isBlank c = false ∧ isWordChar c = false := by
  simp only [marks, List.mem_cons, List.not_mem_nil, or_false] at hc
  rcases hc with rfl | rfl | rfl | rfl
  all_goals exact ⟨rfl, rfl⟩

/-- A trimmed text without comment and mark is cut at its equals sign and nowhere else. -/
theorem readType_trimmed (h : Trimmed raw) (hs : contains "//".toList raw = false)
    (hm : raw.head?.any (· ∈ marks) = false) :
    readType raw = match cut? ['='] raw with
      | some (type, value) => (String.ofList (trim type), some (String.ofList (trim value)))
      | none => (String.ofList raw, none) := by
  have htext : trim (before "//".toList raw) = raw := by rw [before_of_not_contains hs, h]
  rw [readType, htext]
  cases raw with
  | nil => rfl
  | cons c raw =>
    have hc : c ∉ marks := by simpa using hm
    rw [marks] at hc
    cases hcut : cut? ['='] (c :: raw) with
    | none => simp only [if_neg hc, hcut]
    | some cut => simp only [if_neg hc, hcut]

theorem readType_plain (h : Trimmed raw) (hs : contains "//".toList raw = false)
    (hm : raw.head?.any (· ∈ marks) = false) (he : '=' ∉ raw) :
    readType raw = (String.ofList raw, none) := by
  rw [readType_trimmed h hs hm, cut?_singleton_none he]

theorem readType_default {type value : List Char} (hb : ∀ c ∈ b, isBlank c = true)
    (hb' : ∀ c ∈ b', isBlank c = true) (hne : type ≠ []) (h : Trimmed type) (hv : Trimmed value)
    (hs : contains "//".toList type = false) (hvs : contains "//".toList value = false)
    (hm : type.head?.any (· ∈ marks) = false) (he : '=' ∉ type) :
    readType (trimEnd (type ++ (b ++ '=' :: (b' ++ value)))) =
      (String.ofList type, some (String.ofList value)) := by
  have hslash {a : List Char} (ha : ∀ c ∈ a, isBlank c = true) : ∀ c ∈ a, c ∉ "//".toList := by
    intro c hc hcs
    have hall : ("//".toList.all fun c => !isBlank c) = true := rfl
    simpa [ha c hc] using List.all_eq_true.1 hall c hcs
  have hequals : '=' ∉ type ++ b := by
    rw [List.mem_append, not_or]
    exact ⟨he, not_mem_of_blank hb rfl⟩
  have hhead (t : List Char) : (type ++ t).head? = type.head? := by
    rw [List.head?_append_of_ne_nil _ hne]
  have htrim : Trimmed (trimEnd (type ++ (b ++ '=' :: (b' ++ value)))) := by
    refine trimmed_trimEnd ?_
    rw [hhead, h.head]
  have hcontains : contains "//".toList (type ++ (b ++ '=' :: (b' ++ value))) = false := by
    rw [← List.append_assoc, contains_append_cons (by decide) (by decide),
      contains_append_right (by decide) (hslash hb), contains_append_left (by decide) (hslash hb'),
      hs, hvs, Bool.or_false]
  have hsplit : trimEnd (type ++ (b ++ '=' :: (b' ++ value))) =
      (type ++ b) ++ '=' :: trimEnd (b' ++ value) := by
    rw [← List.append_assoc, trimEnd_append_cons (by decide)]
  have hcontains' := contains_false_of_isInfix (trimEnd_isPrefix _).isInfix hcontains
  rw [readType_trimmed htrim hcontains', hsplit, cut?_singleton hequals]
  · dsimp only
    rw [trim_append_right hb, h, trim_trimEnd, trim_append_left hb', hv]
  · rwa [hsplit, List.append_assoc, hhead]

/-! ### Methods -/

theorem readMethod_none {t : List Char} (ht : t.head?.any isWordChar = false) :
    readMethod t = none := by
  have hword : Scan.word t = none := Scan.run_none ht
  simp [readMethod, hword]

theorem readMethod_append (hname : IsWord name) (t : List Char) :
    readMethod (name ++ '(' :: ')' :: t) = some ⟨String.ofList name, returnType t⟩ := by
  have hword : Scan.word (name ++ '(' :: ')' :: t) = some (name, '(' :: ')' :: t) :=
    Scan.word_append hname rfl
  have hopen : trimStart ('(' :: ')' :: t) = '(' :: ')' :: t := rfl
  simp [readMethod, hword, hopen, after?]

theorem returnType_append (hb : ∀ c ∈ b, isBlank c = true) (hb' : ∀ c ∈ b', isBlank c = true)
    (hne : raw ≠ []) (h : Trimmed raw) :
    returnType (b ++ ':' :: (b' ++ raw)) = String.ofList raw := by
  have htrim : trim raw = raw := h
  rw [returnType, afterColon?_append hb, trimStart_append_of_head hb' h.head]
  simp [htrim, hne]

/-! ### Values -/

theorem readValue_word {w : List Char} (hw : IsWord w) : readValue w = some (String.ofList w) := by
  have hfilter : (w.filter fun c => c ≠ '[' && c ≠ ']') = w := by
    apply List.filter_eq_self.2
    intro c hc
    have hopen : c ≠ '[' := fun h => hw.not_mem (c := '[') rfl (h ▸ hc)
    have hclose : c ≠ ']' := fun h => hw.not_mem (c := ']') rfl (h ▸ hc)
    simp [hopen, hclose]
  have hslash : contains "//".toList w = false := by
    refine Bool.eq_false_iff.2 fun h => hw.not_mem (c := '/') rfl ?_
    exact (contains_iff.1 h).subset (by decide)
  have htrim : trim w = w := hw.trimmed
  simp only [readValue, if_neg (hw.not_mem (c := ':') rfl), hfilter, before_of_not_contains hslash,
    htrim, if_neg hw.ne_nil]

end ClassDiagram.Markup
