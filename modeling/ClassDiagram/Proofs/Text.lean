import ClassDiagram.Text.Blank
import ClassDiagram.Text.Line
import ClassDiagram.Text.Search
import ClassDiagram.Text.Word
import Mathlib.Data.List.Basic
import Mathlib.Data.List.DropRight

/-! Text built from pieces, taken apart again: fronts, cuts, blanks, words and lines. A piece that
lacks the character behind which the text goes on cannot reach past it, which is what every lemma on
a joined text rests on. -/

namespace ClassDiagram.Text

variable {p t w a b : List Char} {c : Char}

/-! ### Fronts -/

@[simp] theorem after?_nil (t : List Char) : after? [] t = some t := by
  cases t <;> rfl

@[simp] theorem after?_append (p t : List Char) : after? p (p ++ t) = some t := by
  induction p with
  | nil => exact after?_nil t
  | cons x p ih => simp [after?, ih]

theorem eq_of_after? {r : List Char} (h : after? p t = some r) : t = p ++ r := by
  induction p generalizing t with
  | nil => simpa using h
  | cons x p ih =>
    cases t with
    | nil => simp [after?] at h
    | cons y t =>
      by_cases hxy : x = y
      · rw [after?, if_pos hxy] at h
        rw [hxy, ih h, List.cons_append]
      · rw [after?, if_neg hxy] at h
        contradiction

theorem after?_singleton_iff : after? [c] t = some a ↔ t = c :: a := by
  constructor
  · exact eq_of_after?
  · rintro rfl
    exact after?_append [c] a

theorem startsWith_iff : startsWith p t = true ↔ p <+: t := by
  constructor
  · intro h
    obtain ⟨r, hr⟩ := Option.isSome_iff_exists.1 h
    exact ⟨r, (eq_of_after? hr).symm⟩
  · rintro ⟨r, rfl⟩
    simp [startsWith]

theorem startsWith_eq_false_of_mem (hp : c ∈ p) (ht : c ∉ t) : startsWith p t = false := by
  refine Bool.eq_false_iff.2 fun h => ht ?_
  exact (startsWith_iff.1 h).subset hp

theorem after?_append_cons (hp : c ∉ p) (w t : List Char) :
    after? p (w ++ c :: t) = (after? p w).map (· ++ c :: t) := by
  induction p generalizing w with
  | nil => simp
  | cons x p ih =>
    obtain ⟨hx, hp⟩ := not_or.1 (mt List.mem_cons.2 hp)
    cases w with
    | nil => simp [after?, Ne.symm hx]
    | cons y w =>
      rw [List.cons_append, after?, after?, ih hp]
      split <;> rfl

theorem startsWith_append_cons (hp : c ∉ p) (w t : List Char) :
    startsWith p (w ++ c :: t) = startsWith p w := by
  simp [startsWith, after?_append_cons hp]

/-! ### Cuts -/

theorem cut?_singleton (ha : c ∉ a) (b : List Char) : cut? [c] (a ++ c :: b) = some (a, b) := by
  induction a with
  | nil => simp [cut?, after?]
  | cons x a ih =>
    obtain ⟨hx, ha⟩ := not_or.1 (mt List.mem_cons.2 ha)
    simp [cut?, after?, hx, ih ha]

theorem cut?_singleton_none (ha : c ∉ a) : cut? [c] a = none := by
  induction a with
  | nil => rfl
  | cons x a ih =>
    obtain ⟨hx, ha⟩ := not_or.1 (mt List.mem_cons.2 ha)
    simp [cut?, after?, hx, ih ha]

/-- Up to the character where both first have it, a front and its text agree. -/
theorem startsWith_cons_append_cons (hp : c ∉ p) (hw : c ∉ w) (q t : List Char) :
    startsWith (p ++ c :: q) (w ++ c :: t) = true ↔ p = w ∧ startsWith q t = true := by
  simp only [startsWith_iff]
  constructor
  · rintro ⟨r, hr⟩
    rw [List.append_assoc, List.cons_append] at hr
    have hcut := congrArg (cut? [c]) hr
    rw [cut?_singleton hp, cut?_singleton hw, Option.some.injEq, Prod.mk.injEq] at hcut
    exact ⟨hcut.1, r, hcut.2⟩
  · rintro ⟨rfl, r, rfl⟩
    exact ⟨r, by simp⟩

theorem contains_cons (p t : List Char) (x : Char) :
    contains p (x :: t) = (startsWith p (x :: t) || contains p t) := by
  unfold contains startsWith
  rw [cut?]
  cases after? p (x :: t) <;> simp

theorem contains_nil (hn : p ≠ []) : contains p [] = false := by
  simp [contains, cut?, hn]

theorem contains_iff : contains p t = true ↔ p <:+: t := by
  induction t with
  | nil =>
    by_cases hp : p = []
    · simp [hp, contains, cut?]
    · simp [hp, contains_nil hp]
  | cons x t ih => rw [contains_cons, Bool.or_eq_true, startsWith_iff, ih, List.infix_cons_iff]

theorem contains_false_of_isInfix (h : a <:+: t) (ht : contains p t = false) :
    contains p a = false := by
  apply Bool.eq_false_iff.2
  intro ha
  rw [contains_iff.2 ((contains_iff.1 ha).trans h)] at ht
  contradiction

theorem contains_append_cons (hp : c ∉ p) (hn : p ≠ []) (a b : List Char) :
    contains p (a ++ c :: b) = (contains p a || contains p b) := by
  induction a with
  | nil =>
    have h : startsWith p (c :: b) = false := by
      rw [← List.nil_append (c :: b), startsWith_append_cons hp]
      cases p with
      | nil => contradiction
      | cons => rfl
    rw [List.nil_append, contains_cons, h, contains_nil hn]
  | cons x a ih =>
    rw [List.cons_append, contains_cons, contains_cons, ih, ← List.cons_append,
      startsWith_append_cons hp, Bool.or_assoc]

/-- Characters that a piece lacks add no place for it, in front of a text or behind it. -/
theorem contains_append_left (hn : p ≠ []) (ha : ∀ c ∈ a, c ∉ p) (t : List Char) :
    contains p (a ++ t) = contains p t := by
  induction a with
  | nil => rfl
  | cons x a ih =>
    obtain ⟨hx, ha⟩ := List.forall_mem_cons.1 ha
    have hcons := contains_append_cons hx hn [] (a ++ t)
    rwa [List.nil_append, contains_nil hn, Bool.false_or, ih ha] at hcons

theorem contains_append_right (hn : p ≠ []) (ha : ∀ c ∈ a, c ∉ p) (t : List Char) :
    contains p (t ++ a) = contains p t := by
  cases a with
  | nil => rw [List.append_nil]
  | cons x a =>
    obtain ⟨hx, ha⟩ := List.forall_mem_cons.1 ha
    have hrest := contains_append_left hn ha []
    rw [List.append_nil, contains_nil hn] at hrest
    rw [contains_append_cons hx hn, hrest, Bool.or_false]

theorem before_of_not_contains (h : contains p t = false) : before p t = t := by
  have hnone : cut? p t = none := by simpa [contains] using h
  simp [before, hnone]

theorem cut?_append_left (hn : p ≠ []) (ha : ∀ c ∈ a, c ∉ p) (t : List Char) :
    cut? p (a ++ t) = (cut? p t).map fun q => (a ++ q.1, q.2) := by
  induction a with
  | nil => simp
  | cons x a ih =>
    obtain ⟨hx, ha⟩ := List.forall_mem_cons.1 ha
    have hnone : after? p (x :: (a ++ t)) = none := by
      have hcons := after?_append_cons hx [] (a ++ t)
      cases p with
      | nil => contradiction
      | cons => exact hcons
    rw [List.cons_append, cut?, hnone, ih ha, Option.map_map]
    rfl

theorem before_append_left (hn : p ≠ []) (ha : ∀ c ∈ a, c ∉ p) (t : List Char) :
    before p (a ++ t) = a ++ before p t := by
  rw [before, before, cut?_append_left hn ha]
  cases cut? p t <;> rfl

theorem eq_of_cut? (h : cut? p t = some (a, b)) : t = a ++ (p ++ b) := by
  induction t generalizing a with
  | nil =>
    rw [cut?] at h
    split at h
    · next hp =>
      obtain ⟨rfl, rfl⟩ := Prod.mk.inj (Option.some.inj h)
      rw [hp]
      rfl
    · contradiction
  | cons x t ih =>
    rw [cut?] at h
    split at h
    · next rest hafter =>
      obtain ⟨ha, rfl⟩ := Prod.mk.inj (Option.some.inj h)
      rw [← ha, eq_of_after? hafter, List.nil_append]
    · obtain ⟨⟨a', b'⟩, hcut, hab⟩ := Option.map_eq_some_iff.1 h
      obtain ⟨rfl, rfl⟩ := Prod.mk.inj hab
      rw [List.cons_append, ← ih hcut]

theorem before_isPrefix (p t : List Char) : before p t <+: t := by
  unfold before
  cases h : cut? p t with
  | none => exact List.prefix_rfl
  | some q => exact ⟨p ++ q.2, (eq_of_cut? h).symm⟩

/-- A piece does not stand in the text in front of its first place. -/
theorem contains_before (hn : p ≠ []) (t : List Char) : contains p (before p t) = false := by
  induction t with
  | nil => simp [before, cut?, hn, contains_nil]
  | cons x t ih =>
    cases hafter : after? p (x :: t) with
    | some rest => simp [before, cut?, hafter, contains_nil hn]
    | none =>
      have hbefore : before p (x :: t) = x :: before p t := by
        simp only [before, cut?, hafter]
        cases cut? p t <;> rfl
      have hfront : startsWith p (x :: before p t) = false := by
        refine Bool.eq_false_iff.2 fun h => ?_
        have hlong : p <+: x :: t :=
          (startsWith_iff.1 h).trans (List.cons_prefix_cons.2 ⟨rfl, before_isPrefix p t⟩)
        have hstarts := startsWith_iff.2 hlong
        simp [startsWith, hafter] at hstarts
      rw [hbefore, contains_cons, hfront, ih, Bool.or_false]

theorem not_mem_of_contains (h : contains [c] t = false) : c ∉ t := by
  intro hmem
  obtain ⟨a, b, rfl⟩ := List.append_of_mem hmem
  have hpiece : [c] <:+: a ++ c :: b := ⟨a, b, by simp⟩
  rw [contains_iff.2 hpiece] at h
  contradiction

theorem erasePair_sublist (x y : Char) (t : List Char) : (erasePair x y t).Sublist t := by
  fun_induction erasePair x y t with
  | case1 u v t hpair ih => exact (ih.cons _).cons _
  | case2 u v t hpair ih => exact ih.cons_cons u
  | case3 t => exact List.Sublist.refl t

/-! ### Blanks -/

theorem trimStart_append (hb : ∀ c ∈ b, isBlank c = true) (t : List Char) :
    trimStart (b ++ t) = trimStart t := List.dropWhile_append_of_pos hb

theorem trimStart_of_head (h : t.head?.any isBlank = false) : trimStart t = t := by
  cases t with
  | nil => rfl
  | cons x t => exact List.dropWhile_cons_of_neg (by simpa using h)

theorem trimStart_eq_nil_iff : trimStart t = [] ↔ ∀ c ∈ t, isBlank c = true :=
  List.dropWhile_eq_nil_iff

theorem trimStart_ne_nil_iff : trimStart t ≠ [] ↔ ∃ c ∈ t, isBlank c = false := by
  simp [trimStart_eq_nil_iff]

theorem not_mem_of_blank (hb : ∀ c ∈ b, isBlank c = true) (hc : isBlank c = false) : c ∉ b :=
  fun h => by simp [hb c h] at hc

theorem blank_space : ∀ c ∈ [' '], isBlank c = true := List.forall_mem_singleton.2 rfl

theorem trimStart_space (h : t.head?.any isBlank = false) : trimStart (' ' :: t) = t :=
  (trimStart_append blank_space t).trans (trimStart_of_head h)

theorem trimEnd_cons (c : Char) (t : List Char) :
    trimEnd (c :: t) = if trimEnd t = [] ∧ isBlank c then [] else c :: trimEnd t := by
  unfold trimEnd
  rw [List.reverse_cons, List.dropWhile_append]
  by_cases ht : List.dropWhile isBlank t.reverse = []
  · by_cases hc : isBlank c = true <;> simp [ht, hc]
  · simp [ht]

theorem trimEnd_cons_of_not_blank (hc : isBlank c = false) (t : List Char) :
    trimEnd (c :: t) = c :: trimEnd t := by
  simp [trimEnd_cons, hc]

theorem trimEnd_append_cons (hc : isBlank c = false) (a b : List Char) :
    trimEnd (a ++ c :: b) = a ++ c :: trimEnd b := by
  induction a with
  | nil => exact trimEnd_cons_of_not_blank hc b
  | cons x a ih => simp [trimEnd_cons, ih]

/-- Blanks at the end of a text are those of its last piece, when that does not start with one. -/
theorem trimEnd_append (hn : b ≠ []) (h : b.head?.any isBlank = false) (a : List Char) :
    trimEnd (a ++ b) = a ++ trimEnd b := by
  cases b with
  | nil => contradiction
  | cons x b =>
    have hx : isBlank x = false := by simpa using h
    rw [trimEnd_append_cons hx, trimEnd_cons_of_not_blank hx]

theorem head?_trimEnd (h : t.head?.any isBlank = false) : (trimEnd t).head? = t.head? := by
  cases t with
  | nil => rfl
  | cons x t => rw [trimEnd_cons_of_not_blank (by simpa using h), List.head?_cons, List.head?_cons]

theorem trimEnd_append_of_blank (hb : ∀ c ∈ b, isBlank c = true) (t : List Char) :
    trimEnd (t ++ b) = trimEnd t := by
  unfold trimEnd
  rw [List.reverse_append, List.dropWhile_append_of_pos fun c hc => hb c (List.mem_reverse.1 hc)]

theorem trimEnd_trimEnd (t : List Char) : trimEnd (trimEnd t) = trimEnd t :=
  List.rdropWhile_idempotent isBlank t

theorem trimEnd_trimStart (t : List Char) : trimEnd (trimStart t) = trimStart (trimEnd t) := by
  induction t with
  | nil => rfl
  | cons x t ih =>
    cases hx : isBlank x with
    | true =>
      have hs (u : List Char) : trimStart (x :: u) = trimStart u := by simp [trimStart, hx]
      rw [hs, ih, trimEnd_cons]
      split
      · next h => rw [h.1]
      · exact (hs _).symm
    | false =>
      have hs (u : List Char) : trimStart (x :: u) = x :: u := by simp [trimStart, hx]
      rw [hs, trimEnd_cons_of_not_blank hx, hs]

theorem trim_append_left (hb : ∀ c ∈ b, isBlank c = true) (t : List Char) :
    trim (b ++ t) = trim t := by
  rw [trim, trimStart_append hb, trim]

theorem trim_append_right (hb : ∀ c ∈ b, isBlank c = true) (t : List Char) :
    trim (t ++ b) = trim t := by
  rw [trim, trimEnd_trimStart, trimEnd_append_of_blank hb, ← trimEnd_trimStart, trim]

theorem trim_trimStart (t : List Char) : trim (trimStart t) = trim t := by
  rw [trim, trim, trimStart, trimStart, List.dropWhile_idempotent]

theorem trim_eq_nil_iff : trim t = [] ↔ trimStart t = [] := by
  rw [trim]
  constructor
  · intro h
    have hblank := trimStart_eq_nil_iff.2 (List.rdropWhile_eq_nil_iff.1 h)
    rwa [trimStart, trimStart, List.dropWhile_idempotent] at hblank
  · intro h
    rw [h]
    rfl

theorem trim_cons_of_not_blank (hc : isBlank c = false) (t : List Char) :
    trim (c :: t) = c :: trimEnd t := by
  rw [trim, trimStart_of_head (by simpa using hc), trimEnd_cons_of_not_blank hc]

theorem trim_trimEnd (t : List Char) : trim (trimEnd t) = trim t := by
  rw [trim, trimEnd_trimStart, trimEnd_trimEnd, ← trimEnd_trimStart, trim]

/-- A text without blanks at its ends. -/
def Trimmed (t : List Char) : Prop := trim t = t

instance (t : List Char) : Decidable (Trimmed t) := inferInstanceAs (Decidable (trim t = t))

theorem Trimmed.head (h : Trimmed t) : t.head?.any isBlank = false := by
  have hs : trimStart (trimEnd t) = t := (trimEnd_trimStart t).symm.trans h
  have hhead := List.head?_dropWhile_not isBlank (trimEnd t)
  rw [show List.dropWhile isBlank (trimEnd t) = t from hs] at hhead
  cases t with
  | nil => rfl
  | cons x t => exact hhead

theorem Trimmed.trimStart_eq (h : Trimmed t) : trimStart t = t := trimStart_of_head h.head

theorem Trimmed.trimEnd_eq (h : Trimmed t) : trimEnd t = t := by
  have ht : trimEnd (trimStart t) = t := h
  rwa [h.trimStart_eq] at ht

theorem trimmed_trimEnd (h : t.head?.any isBlank = false) : Trimmed (trimEnd t) := by
  rw [Trimmed, trim_trimEnd, trim, trimStart_of_head h]

theorem trimEnd_isPrefix (t : List Char) : trimEnd t <+: t := List.rdropWhile_prefix isBlank t

theorem head_trimEnd {p : Char → Bool} (h : t.head?.any p = false) :
    (trimEnd t).head?.any p = false := by
  obtain ⟨rest, hrest⟩ := trimEnd_isPrefix t
  cases hend : trimEnd t with
  | nil => rfl
  | cons c t' =>
    rw [← hrest, hend] at h
    exact h

theorem trimStart_suffix (t : List Char) : trimStart t <:+ t := List.dropWhile_suffix isBlank

theorem head_trimStart (t : List Char) : (trimStart t).head?.any isBlank = false := by
  have hhead := List.head?_dropWhile_not isBlank t
  rw [Option.any_eq_false]
  intro c hc
  rw [show List.dropWhile isBlank t = trimStart t from rfl, hc] at hhead
  simpa using hhead

theorem trim_isInfix (t : List Char) : trim t <:+: t :=
  (trimEnd_isPrefix _).isInfix.trans (trimStart_suffix t).isInfix

theorem trimmed_trim (t : List Char) : Trimmed (trim t) := trimmed_trimEnd (head_trimStart t)

/-- Without its first character a trimmed text may start with blanks, but it does not end with one. -/
theorem Trimmed.tail (h : Trimmed (c :: t)) : Trimmed (trimStart t) := by
  have hend : trimEnd t = t := by
    have heq := h.trimEnd_eq
    rw [trimEnd_cons] at heq
    split at heq
    · contradiction
    · exact (List.cons.inj heq).2
  have hrest : trimEnd (trimStart t) = trimStart t := by rw [trimEnd_trimStart, hend]
  rw [← hrest]
  exact trimmed_trimEnd (head_trimStart t)

theorem count_trimEnd (hc : isBlank c = false) (t : List Char) :
    (trimEnd t).count c = t.count c := by
  induction t with
  | nil => rfl
  | cons x t ih =>
    rw [trimEnd_cons]
    split
    · next h =>
      have hx : x ≠ c := fun hx => by simp [hx, hc] at h
      rw [List.count_cons_of_ne hx, ← ih, h.1]
    · rw [List.count_cons, List.count_cons, ih]

/-! ### Words -/

/-- A run of word characters, which is what a name is. -/
structure IsWord (w : List Char) : Prop where
  ne_nil : w ≠ []
  chars : ∀ c ∈ w, isWordChar c = true

instance (w : List Char) : Decidable (IsWord w) :=
  decidable_of_iff (w ≠ [] ∧ w.all isWordChar = true)
    ⟨fun h => ⟨h.1, List.all_eq_true.1 h.2⟩, fun h => ⟨h.ne_nil, List.all_eq_true.2 h.chars⟩⟩

theorem isBlank_of_isWordChar (h : isWordChar c = true) : isBlank c = false := by
  have hn : 48 ≤ c.toNat ∧ c.toNat ≤ 122 := by
    simp only [isWordChar, Bool.or_eq_true, Bool.and_eq_true, decide_eq_true_eq, Char.le_def,
      UInt32.le_iff_toNat_le] at h
    rcases h with ((h | h) | h) | rfl
    · exact ⟨le_trans (by decide) h.1, h.2⟩
    · exact ⟨le_trans (by decide) h.1, le_trans h.2 (by decide)⟩
    · exact ⟨h.1, le_trans h.2 (by decide)⟩
    · decide
  simp only [isBlank, inRanges, blankRanges, List.any_cons, List.any_nil, Bool.or_eq_false_iff,
    Bool.and_eq_false_iff, decide_eq_false_iff_not, and_true]
  omega

theorem isWordChar_of_isBlank (h : isBlank c = true) : isWordChar c = false :=
  Bool.eq_false_iff.2 fun hword => by simp [isBlank_of_isWordChar hword] at h

theorem IsWord.not_mem (h : IsWord w) (hc : isWordChar c = false) : c ∉ w := fun hm => by
  simp [h.chars c hm] at hc

theorem IsWord.suffix (h : IsWord w) (ha : a ≠ []) (haw : a <:+ w) : IsWord a :=
  ⟨ha, fun c hc => h.chars c (haw.subset hc)⟩

/-- A word does not start with a blank, whatever follows it. -/
theorem IsWord.head_not_blank (h : IsWord w) (t : List Char) :
    (w ++ t).head?.any isBlank = false := by
  cases w with
  | nil => exact absurd rfl h.ne_nil
  | cons x w => exact isBlank_of_isWordChar (h.chars x List.mem_cons_self)

theorem IsWord.trimmed (h : IsWord w) : Trimmed w := by
  have hend : trimEnd w = w := (List.rdropWhile_eq_self_iff (p := isBlank) (l := w)).2 fun hne => by
    simp [isBlank_of_isWordChar (h.chars _ (List.getLast_mem hne))]
  have hhead : w.head?.any isBlank = false := by simpa using h.head_not_blank []
  rw [Trimmed, trim, trimStart_of_head hhead, hend]

/-- Blanks behind a word do not reach into it. -/
theorem trimEnd_append_word (hw : IsWord w) (a t : List Char) :
    trimEnd (a ++ (w ++ t)) = a ++ (w ++ trimEnd t) := by
  have hlast : isBlank (w.getLast hw.ne_nil) = false :=
    isBlank_of_isWordChar (hw.chars _ (List.getLast_mem hw.ne_nil))
  have hsplit (t : List Char) : a ++ (w ++ t) = (a ++ w.dropLast) ++ w.getLast hw.ne_nil :: t := by
    conv_lhs => rw [← List.dropLast_concat_getLast hw.ne_nil]
    simp
  rw [hsplit, trimEnd_append_cons hlast, ← hsplit]

/-! ### Lines -/

theorem lines_append_newline (h : '\n' ∉ a) (t : List Char) :
    lines (a ++ '\n' :: t) = a :: lines t := by
  induction a with
  | nil => rfl
  | cons x a ih =>
    obtain ⟨hx, ha⟩ := not_or.1 (mt List.mem_cons.2 h)
    simp [lines, ih ha, Ne.symm hx]

theorem lines_ne_nil (h : t ≠ []) : lines t ≠ [] := by
  cases t with
  | nil => contradiction
  | cons x t =>
    rw [lines]
    split
    · exact List.cons_ne_nil _ _
    · cases lines t <;> exact List.cons_ne_nil _ _

theorem newline_of_mem_lines {l : List Char} (h : l ∈ lines t) : '\n' ∉ l := by
  induction t generalizing l with
  | nil => contradiction
  | cons x t ih =>
    rw [lines] at h
    split at h
    · rcases List.mem_cons.1 h with rfl | h
      · exact List.not_mem_nil
      · exact ih h
    · next hx =>
      cases hlines : lines t with
      | nil =>
        rw [hlines] at h
        obtain rfl := List.mem_singleton.1 h
        simpa using Ne.symm hx
      | cons l' ls =>
        rw [hlines] at h ih
        rcases List.mem_cons.1 h with rfl | h
        · have hl' := ih List.mem_cons_self
          simpa [hl'] using Ne.symm hx
        · exact ih (List.mem_cons_of_mem _ h)

/-- A text behind which a line starts: it is empty, or it ends with a line feed. -/
def EndsLine (t : List Char) : Prop := t = [] ∨ t.getLast? = some '\n'

instance (t : List Char) : Decidable (EndsLine t) := inferInstanceAs (Decidable (_ ∨ _))

theorem lines_append (h : EndsLine a) (b : List Char) : lines (a ++ b) = lines a ++ lines b := by
  induction a with
  | nil => rfl
  | cons x a ih =>
    have hlast : (x :: a).getLast? = some '\n' := h.resolve_left (List.cons_ne_nil x a)
    cases a with
    | nil =>
      obtain rfl : x = '\n' := by simpa using hlast
      rfl
    | cons y a =>
      have hrest := ih (.inr (by simpa using hlast))
      obtain ⟨l, ls, hl⟩ := List.exists_cons_of_ne_nil (lines_ne_nil (List.cons_ne_nil y a))
      rw [List.cons_append, lines, hrest, lines.eq_def (x :: y :: a)]
      by_cases hx : x = '\n'
      · simp [hx]
      · simp [hx, hl]

/-- The text of some lines, each ended by a line feed. -/
def unlines (ls : List (List Char)) : List Char := ls.flatMap (· ++ ['\n'])

theorem lines_unlines {ls : List (List Char)} (h : ∀ l ∈ ls, '\n' ∉ l) :
    lines (unlines ls) = ls := by
  induction ls with
  | nil => rfl
  | cons l ls ih =>
    obtain ⟨hl, hls⟩ := List.forall_mem_cons.1 h
    rw [unlines, List.flatMap_cons, List.append_assoc, List.singleton_append,
      lines_append_newline hl]
    exact congrArg (l :: ·) (ih hls)

end ClassDiagram.Text
