import ClassDiagram.Proofs.Text
import ClassDiagram.Scan

/-! What the recognisers read from a text that was put together from the pieces they look for. A run
ends where its characters end, so each lemma asks for what stands right behind the piece. -/

namespace ClassDiagram.Scan

open Text

variable {α : Type} {p : Char → Bool} {w a b t : List Char} {c : Char}

theorem run_append (hp : ∀ c ∈ w, p c = true) (hw : w ≠ []) (ht : t.head?.any p = false) :
    run p (w ++ t) = some (w, t) := by
  have htake : t.takeWhile p = [] := by
    cases t with
    | nil => rfl
    | cons x t => exact List.takeWhile_cons_of_neg (by simpa using ht)
  have hdrop : t.dropWhile p = t := by
    cases t with
    | nil => rfl
    | cons x t => exact List.dropWhile_cons_of_neg (by simpa using ht)
  rw [run, List.takeWhile_append_of_pos hp, List.dropWhile_append_of_pos hp, htake, hdrop,
    List.append_nil]
  cases w with
  | nil => contradiction
  | cons x w => rfl

theorem run_cons (p : Char → Bool) (c : Char) (t : List Char) :
    run p (c :: t) = if p c then some (c :: t.takeWhile p, t.dropWhile p) else none := by
  cases hc : p c <;> simp [run, hc]

theorem run_none (ht : t.head?.any p = false) : run p t = none := by
  cases t with
  | nil => rfl
  | cons x t => rw [run, List.takeWhile_cons_of_neg (by simpa using ht)]

/-- A run takes all it can: what it leaves does not go on with the class. -/
theorem eq_of_run (h : run p t = some (w, a)) :
    w ≠ [] ∧ (∀ c ∈ w, p c = true) ∧ t = w ++ a ∧ a.head?.any p = false := by
  have htake : t.takeWhile p ++ t.dropWhile p = t := List.takeWhile_append_dropWhile
  rw [run] at h
  split at h
  · contradiction
  · next hne =>
    obtain ⟨rfl, rfl⟩ := Prod.mk.inj (Option.some.inj h)
    refine ⟨hne, fun c hc => List.mem_takeWhile_imp hc, htake.symm, ?_⟩
    rw [Option.any_eq_false]
    intro c hc
    have hhead := List.head?_dropWhile_not p t
    rw [hc] at hhead
    exact hhead

theorem run_append_of_stop (ht : t.head?.any p = false) (a : List Char) :
    run p (a ++ t) = (run p a).map fun q => (q.1, q.2 ++ t) := by
  cases hrun : run p a with
  | none =>
    apply run_none
    cases a with
    | nil => exact ht
    | cons c a =>
      by_contra hc
      simp [run_cons, show p c = true by simpa using hc] at hrun
  | some q =>
    obtain ⟨hne, htaken, rfl, hrest⟩ := eq_of_run hrun
    rw [List.append_assoc]
    apply run_append htaken hne
    cases hq : q.2 with
    | nil => exact ht
    | cons c rest => simpa [hq] using hrest

theorem word_append (hw : IsWord w) (ht : t.head?.any isWordChar = false) :
    word (w ++ t) = some (w, t) := run_append hw.chars hw.ne_nil ht

theorem word_append_cons {c : Char} (hc : isWordChar c = false) (w t : List Char) :
    word (w ++ c :: t) = (word w).map fun q => (q.1, q.2 ++ c :: t) :=
  run_append_of_stop (by simpa using hc) w

theorem eq_of_word (h : word t = some (w, a)) : IsWord w ∧ t = w ++ a := by
  obtain ⟨hne, hchars, ht, -⟩ := eq_of_run h
  exact ⟨⟨hne, hchars⟩, ht⟩

theorem someBlanks_append (hb : ∀ c ∈ b, isBlank c = true) (hn : b ≠ [])
    (ht : t.head?.any isBlank = false) : someBlanks (b ++ t) = some (b, t) := run_append hb hn ht

theorem someBlanks_space (ht : t.head?.any isBlank = false) :
    someBlanks (' ' :: t) = some ([' '], t) :=
  someBlanks_append blank_space (List.cons_ne_nil _ _) ht

theorem someBlanks_bind (read : List Char → Option α) (t : List Char) :
    ((someBlanks t).bind fun q => read q.2) =
      if t.head?.any isBlank then read (trimStart t) else none := by
  cases t with
  | nil => rfl
  | cons c t =>
    rw [someBlanks, run_cons]
    cases hc : isBlank c <;> simp [hc, trimStart]

theorem quoted_append (hq : '"' ∉ w) (hw : w ≠ []) (t : List Char) :
    quoted ('"' :: w ++ '"' :: t) = some (w, t) := by
  have hrun : run (· ≠ '"') (w ++ '"' :: t) = some (w, '"' :: t) :=
    run_append (fun c hc => decide_eq_true fun h => hq (h ▸ hc)) hw rfl
  simp only [List.cons_append, quoted, hrun]

theorem eq_of_quoted (h : quoted t = some (w, a)) : t = '"' :: (w ++ '"' :: a) := by
  unfold quoted at h
  split at h
  · split at h
    · next hrun =>
      obtain ⟨rfl, rfl⟩ := Prod.mk.inj (Option.some.inj h)
      obtain ⟨-, -, ht, -⟩ := eq_of_run hrun
      rw [ht]
    · contradiction
  · contradiction

theorem ne_nil_of_quoted (h : quoted t = some (w, a)) : w ≠ [] := by
  unfold quoted at h
  split at h
  · split at h
    · next hrun =>
      obtain ⟨rfl, -⟩ := Prod.mk.inj (Option.some.inj h)
      exact (eq_of_run hrun).1
    · contradiction
  · contradiction

theorem quoted_none (ht : t.head? ≠ some '"') : quoted t = none := by
  unfold quoted
  split
  · simp at ht
  · rfl

theorem bracket_closed {inner : List Char} (h : ']' ∉ inner) (t : List Char) :
    bracket ('[' :: (inner ++ ']' :: t)) = some ('[' :: (inner ++ [']']), t) := by
  have hinner : ∀ c ∈ inner, decide (c ≠ ']') = true :=
    fun c hc => decide_eq_true fun hne => h (hne ▸ hc)
  have hdrop : (inner ++ ']' :: t).dropWhile (· ≠ ']') = ']' :: t := by
    rw [List.dropWhile_append_of_pos hinner]
    rfl
  have htake : (inner ++ ']' :: t).takeWhile (· ≠ ']') = inner := by
    rw [List.takeWhile_append_of_pos hinner]
    exact List.append_nil inner
  rw [bracket, hdrop, htake]
  rfl

theorem leftmost_of_some {read : List Char → Option α} {x : α} (ht : t ≠ [])
    (h : read t = some x) : leftmost read t = some x := by
  cases t with
  | nil => contradiction
  | cons c t => rw [leftmost, h]

theorem leftmost_append_of_none {read : List Char → Option α}
    (h : ∀ s, s ≠ [] → s <:+ a → read (s ++ t) = none) :
    leftmost read (a ++ t) = leftmost read t := by
  induction a with
  | nil => rfl
  | cons c a ih =>
    have hc : read (c :: (a ++ t)) = none := h (c :: a) (List.cons_ne_nil c a) List.suffix_rfl
    rw [List.cons_append, leftmost, hc]
    exact ih fun s hs hsa => h s hs (hsa.trans (List.suffix_cons c a))

/-- A reader that finds nothing at the front of a text, and nothing inside it then, goes on behind. -/
theorem leftmost_append_front {read : List Char → Option α} (ha : a ≠ [])
    (h : read (a ++ t) = none → ∀ s, s ≠ [] → s <:+ a → read (s ++ t) = none) :
    leftmost read (a ++ t) = (read (a ++ t)).or (leftmost read t) := by
  cases hread : read (a ++ t) with
  | none => rw [leftmost_append_of_none (h hread), Option.none_or]
  | some x => rw [leftmost_of_some (by simp [ha]) hread, Option.some_or]

theorem leftmost_append {read : List Char → Option α}
    (h : ∀ s, s ≠ [] → s <:+ a → read (s ++ t) = read s) :
    leftmost read (a ++ t) = (leftmost read a).or (leftmost read t) := by
  induction a with
  | nil => rfl
  | cons c a ih =>
    have hc : read (c :: (a ++ t)) = read (c :: a) :=
      h (c :: a) (List.cons_ne_nil c a) List.suffix_rfl
    have ha := ih fun s hs hsa => h s hs (hsa.trans (List.suffix_cons c a))
    rw [List.cons_append, leftmost, leftmost, hc, ha]
    cases read (c :: a) <;> rfl

theorem leftmost_none {read : List Char → Option α} (h : ∀ s, s ≠ [] → s <:+ t → read s = none) :
    leftmost read t = none := by
  induction t with
  | nil => rfl
  | cons c t ih =>
    rw [leftmost, h (c :: t) (List.cons_ne_nil c t) List.suffix_rfl]
    exact ih fun s hs hst => h s hs (hst.trans (List.suffix_cons c t))

theorem leftmost_map {β : Type} (f : α → β) (read : List Char → Option α) (t : List Char) :
    leftmost (fun cs => (read cs).map f) t = (leftmost read t).map f := by
  induction t with
  | nil => rfl
  | cons c t ih =>
    rw [leftmost, leftmost, ih]
    cases read (c :: t) <;> rfl

theorem exists_of_leftmost {read : List Char → Option α} {x : α} (h : leftmost read t = some x) :
    ∃ s, s <:+ t ∧ read s = some x := by
  induction t with
  | nil => contradiction
  | cons c t ih =>
    rw [leftmost] at h
    split at h
    · next hread => exact ⟨c :: t, List.suffix_rfl, hread.trans h⟩
    · obtain ⟨s, hs, hread⟩ := ih h
      exact ⟨s, hs.trans (List.suffix_cons c t), hread⟩

theorem leftmost_eq_none_iff {read : List Char → Option α} (hnil : read [] = none) :
    leftmost read t = none ↔ ∀ j, read (t.drop j) = none := by
  induction t with
  | nil => simp [leftmost, hnil]
  | cons c t ih =>
    constructor
    · intro h j
      rw [leftmost] at h
      split at h
      · contradiction
      · next hc =>
        cases j with
        | zero => exact hc
        | succ j => exact ih.1 h j
    · intro h
      have hc : read (c :: t) = none := h 0
      rw [leftmost, hc]
      exact ih.2 fun j => h (j + 1)

theorem leftmost_eq_some_iff {read : List Char → Option α} {x : α} (hnil : read [] = none) :
    leftmost read t = some x ↔
      ∃ k, (∀ j < k, read (t.drop j) = none) ∧ read (t.drop k) = some x := by
  induction t with
  | nil => simp [leftmost, hnil]
  | cons c t ih =>
    constructor
    · intro h
      rw [leftmost] at h
      split at h
      · next hc => exact ⟨0, fun j hj => absurd hj j.not_lt_zero, hc.trans h⟩
      · next hc =>
        obtain ⟨k, hnone, hk⟩ := ih.1 h
        refine ⟨k + 1, fun j hj => ?_, hk⟩
        cases j with
        | zero => exact hc
        | succ j => exact hnone j (Nat.lt_of_succ_lt_succ hj)
    · rintro ⟨k, hnone, hk⟩
      cases k with
      | zero => exact leftmost_of_some (List.cons_ne_nil c t) hk
      | succ k =>
        have hc : read (c :: t) = none := hnone 0 k.succ_pos
        rw [leftmost, hc]
        exact ih.2 ⟨k, fun j hj => hnone (j + 1) (Nat.succ_lt_succ hj), hk⟩

end ClassDiagram.Scan
