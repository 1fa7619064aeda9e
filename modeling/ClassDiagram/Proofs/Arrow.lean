import ClassDiagram.Proofs.Scan
import ClassDiagram.Relation.Table

/-! Lines with one arrow. A pattern reads its arrow behind a blank, so in a line where only one text
behind a blank has a dash or a dot, the first row of the table that reads that text decides. -/

namespace ClassDiagram.Relation

open Text

variable {t : List Char}

theorem isWordChar_of_isTurn {c : Char} (h : isTurn c = true) : isWordChar c = true := by
  simp only [isTurn, Bool.or_eq_true, decide_eq_true_eq] at h
  rcases h with ((rfl | rfl) | rfl) | rfl <;> decide

/-- A text without blanks. -/
def Plain (t : List Char) : Prop := ∀ c ∈ t, isBlank c = false

instance (t : List Char) : Decidable (Plain t) :=
  decidable_of_iff (t.all fun c => !isBlank c) (by simp [Plain])

@[simp] theorem plain_nil : Plain [] := List.forall_mem_nil _

@[simp] theorem plain_cons (c : Char) (t : List Char) :
    Plain (c :: t) ↔ isBlank c = false ∧ Plain t := List.forall_mem_cons

@[simp] theorem plain_append (a t : List Char) : Plain (a ++ t) ↔ Plain a ∧ Plain t :=
  List.forall_mem_append

theorem plain_word {w : List Char} (h : IsWord w) : Plain w :=
  fun c hc => isBlank_of_isWordChar (h.chars c hc)

/-! ### Arrows without their subjects -/

/-- The target that a pattern reads where its arrow starts. -/
def Pattern.readArrow (p : Pattern) (cs : List Char) : Option (List Char) :=
  (skipPieces p.arrow cs).bind fun rest => (p.target.read rest).map Prod.fst

/-- The first of some rows that reads a text at its front, with the target that it reads. -/
def firstRow (rows : List Pattern) (cs : List Char) : Option (Pattern × List Char) :=
  rows.findSome? fun q => (q.readArrow cs).map (q, ·)

theorem firstRow_cons (q : Pattern) (rows : List Pattern) (cs : List Char) :
    firstRow (q :: rows) cs = match q.readArrow cs with
      | some b => some (q, b)
      | none => firstRow rows cs := by
  cases h : q.readArrow cs <;> simp [firstRow, h]

/-! ### What stands in front of an arrow, and in it -/

theorem cons_suffix_append {b : Char} {rest a : List Char} (h : b :: rest <:+ a ++ t) :
    b :: rest <:+ t ∨ ∃ a', b :: a' <:+ a ∧ rest = a' ++ t := by
  obtain ⟨front, h⟩ := h
  rcases List.append_eq_append_iff.1 h with ⟨a', rfl, hrest⟩ | ⟨c', rfl, rfl⟩
  · cases a' with
    | nil => exact .inl ⟨[], hrest⟩
    | cons d a' =>
      obtain ⟨rfl, rfl⟩ := List.cons.inj hrest
      exact .inr ⟨a', List.suffix_append front _, rfl⟩
  · exact .inl (List.suffix_append c' _)

theorem skipMember_suffix (cs : List Char) : skipMember cs <:+ cs := by
  rw [skipMember]
  split
  · next h =>
    obtain ⟨rest, hcolons, hword⟩ := Option.bind_eq_some_iff.1 h
    obtain ⟨-, -, hrest, -⟩ := Scan.eq_of_run hword
    rw [eq_of_after? hcolons, hrest]
    exact (List.suffix_append _ _).trans (List.suffix_append _ _)
  · exact List.suffix_rfl

/-- A subject ends behind a blank, and in front of none. -/
theorem Subject.read_suffix {s : Subject} {cs w rest : List Char} (h : s.read cs = some (w, rest)) :
    rest.head?.any isBlank = false ∧ ∃ b, isBlank b = true ∧ b :: rest <:+ cs := by
  simp only [Subject.read, Option.bind_eq_bind, Option.bind_eq_some_iff] at h
  obtain ⟨⟨name, behind⟩, hname, ⟨gap, rest'⟩, hgap, h⟩ := h
  obtain ⟨-, -, hcs, -⟩ := Scan.eq_of_run hname
  obtain ⟨hne, hblank, hgap, hhead⟩ := Scan.eq_of_run hgap
  obtain ⟨-, rfl⟩ := Prod.mk.inj (Option.some.inj h)
  have hlast : gap.getLast hne :: rest' <:+ gap ++ rest' := by
    refine ⟨gap.dropLast, ?_⟩
    rw [List.append_cons, List.dropLast_concat_getLast hne]
  have hskip : gap ++ rest' <:+ behind := by
    rw [← hgap]
    cases s
    · exact List.suffix_rfl
    · exact skipMember_suffix behind
  refine ⟨hhead, gap.getLast hne, hblank _ (List.getLast_mem hne), ?_⟩
  rw [hcs]
  exact (hlast.trans hskip).trans (List.suffix_append name behind)

/-- Whether a piece is a part of the line of an arrow. -/
def Piece.drawn : Piece → Bool
  | text s => s.toList.any fun c => c = '-' || c = '.'
  | run c => c = '-' || c = '.'
  | style | turn => false
  | turnedDots => true

theorem drawn_of_mem : ∀ p ∈ patterns, p.arrow.any Piece.drawn := by decide

theorem Piece.mem_of_drawn {p : Piece} {cs rest : List Char} (hp : p.drawn)
    (h : p.skip cs = some rest) : '-' ∈ cs ∨ '.' ∈ cs := by
  have hsign {c : Char} (hc : decide (c = '-') || decide (c = '.')) (hmem : c ∈ cs) :
      '-' ∈ cs ∨ '.' ∈ cs := by
    rcases Bool.or_eq_true_iff.1 hc with hc | hc
    · exact .inl (of_decide_eq_true hc ▸ hmem)
    · exact .inr (of_decide_eq_true hc ▸ hmem)
  cases p with
  | text s =>
    obtain ⟨c, hmem, hc⟩ := List.any_eq_true.1 hp
    refine hsign hc ?_
    rw [eq_of_after? h]
    exact List.mem_append_left _ hmem
  | run c =>
    obtain ⟨⟨taken, rest⟩, hrun, -⟩ := Option.map_eq_some_iff.1 h
    obtain ⟨hne, htaken, hcs, -⟩ := Scan.eq_of_run hrun
    refine hsign hp ?_
    obtain ⟨d, taken, rfl⟩ := List.exists_cons_of_ne_nil hne
    obtain rfl : d = c := of_decide_eq_true (htaken d List.mem_cons_self)
    rw [hcs]
    exact List.mem_cons_self
  | style | turn => contradiction
  | turnedDots =>
    refine .inr ?_
    rw [Piece.skip] at h
    cases cs with
    | nil => exact absurd h.symm (Option.some_ne_none rest)
    | cons c cs =>
      by_cases hc : c = '.'
      · exact hc ▸ List.mem_cons_self
      · have hrun : Scan.run (· = '.') (c :: cs) = none := Scan.run_none (decide_eq_false hc)
        simp [skipTurnedDots, hrun, skipTwoDots, hc] at h

theorem Piece.skip_suffix {p : Piece} {cs rest : List Char} (h : p.skip cs = some rest) :
    rest <:+ cs := by
  have hrun {c : Char} {t : List Char} (h : (Scan.run (· = c) t).map Prod.snd = some rest) :
      rest <:+ t := by
    obtain ⟨⟨taken, rest⟩, hrun, rfl⟩ := Option.map_eq_some_iff.1 h
    obtain ⟨-, -, rfl, -⟩ := Scan.eq_of_run hrun
    exact List.suffix_append _ _
  cases p with
  | text s =>
    rw [eq_of_after? h]
    exact List.suffix_append _ _
  | run c => exact hrun h
  | style =>
    obtain ⟨⟨taken, rest⟩, hstyle, rfl⟩ := Option.map_eq_some_iff.1 h
    unfold Scan.bracket at hstyle
    split at hstyle
    · next inner =>
      split at hstyle
      · next behind hdrop =>
        obtain ⟨-, rfl⟩ := Prod.mk.inj (Option.some.inj hstyle)
        have hsuffix : ']' :: behind <:+ inner := hdrop ▸ List.dropWhile_suffix _
        exact ((List.suffix_cons _ _).trans hsuffix).trans (List.suffix_cons _ _)
      · contradiction
    · contradiction
  | turn =>
    cases cs with
    | nil => exact (Option.some.inj h) ▸ List.suffix_rfl
    | cons c cs =>
      rw [Piece.skip] at h
      split at h
      · exact Option.some.inj h ▸ List.suffix_cons c cs
      · exact Option.some.inj h ▸ List.suffix_rfl
  | turnedDots =>
    rw [Piece.skip] at h
    split at h
    · next hturned =>
      obtain rfl := Option.some.inj h
      simp only [skipTurnedDots, Option.bind_eq_bind, Option.bind_eq_some_iff] at hturned
      obtain ⟨⟨dots, behind⟩, hdots, hturned⟩ := hturned
      obtain ⟨-, -, rfl, -⟩ := Scan.eq_of_run hdots
      split at hturned
      · contradiction
      · next t behind hbehind =>
        obtain rfl : _ = t :: behind := hbehind
        split at hturned
        · exact ((hrun hturned).trans (List.suffix_cons t behind)).trans (List.suffix_append _ _)
        · contradiction
    · unfold skipTwoDots at h
      split at h
      · exact (hrun h).trans (List.suffix_cons _ _)
      · contradiction

theorem mem_of_skipPieces {ps : List Piece} {cs rest : List Char} (hps : ps.any Piece.drawn)
    (h : skipPieces ps cs = some rest) : '-' ∈ cs ∨ '.' ∈ cs := by
  induction ps generalizing cs with
  | nil => contradiction
  | cons p ps ih =>
    obtain ⟨cs', hp, hps'⟩ := Option.bind_eq_some_iff.1 h
    cases hd : p.drawn with
    | true => exact p.mem_of_drawn hd hp
    | false =>
      have hsub := (p.skip_suffix hp).subset
      rcases ih (by simpa [hd] using hps) hps' with hmem | hmem
      · exact .inl (hsub hmem)
      · exact .inr (hsub hmem)

/-! ### The row that decides -/

variable {p : Pattern} {gap source target line text : List Char}

theorem Pattern.read?_none {cs : List Char} (h : p.subject.read cs = none) : p.read? cs = none := by
  rw [Pattern.read?, h]
  rfl

/-- Behind the blanks of a line only one text has the line of an arrow in it. -/
def OneArrow (line text : List Char) : Prop :=
  ∀ b rest, isBlank b = true → b :: rest <:+ line → rest.head?.any isBlank = false →
    ('-' ∈ rest ∨ '.' ∈ rest) → rest = text

theorem oneArrow_append {front arrow tail : List Char} (hfront : Plain front)
    (hgap : ∀ c ∈ gap, isBlank c = true) (harrow : Plain arrow)
    (htail : '-' ∉ tail ∧ '.' ∉ tail) :
    OneArrow (front ++ (gap ++ (arrow ++ tail))) (arrow ++ tail) := by
  intro b rest hb hsuffix hrest hsign
  have hblank {t a : List Char} (ht : Plain t) : ¬ b :: a <:+ t := by
    intro h
    have hb' := ht b (h.subset List.mem_cons_self)
    rw [hb] at hb'
    contradiction
  rcases cons_suffix_append hsuffix with hsuffix | ⟨a, ha, rfl⟩
  · rcases cons_suffix_append hsuffix with hsuffix | ⟨a, ha, rfl⟩
    · rcases cons_suffix_append hsuffix with hsuffix | ⟨a, ha, rfl⟩
      · have hmem {c : Char} (hc : c ∈ rest) : c ∈ tail :=
          hsuffix.subset (List.mem_cons_of_mem b hc)
        rcases hsign with h | h
        · exact absurd (hmem h) htail.1
        · exact absurd (hmem h) htail.2
      · exact absurd ha (hblank harrow)
    · cases a with
      | nil => rfl
      | cons c a =>
        have hc : isBlank c = true := hgap c (ha.subset (by simp))
        simp [hc] at hrest
  · exact absurd ha (hblank hfront)

theorem leftmost_of_oneArrow (h : OneArrow line text) (hp : p ∈ patterns)
    (hnone : p.readArrow text = none) : Scan.leftmost p.read? line = none := by
  apply Scan.leftmost_none
  intro cs _ hcs
  rcases hread : p.subject.read cs with _ | ⟨w, rest⟩
  · exact Pattern.read?_none hread
  obtain ⟨hhead, b, hb, hsuffix⟩ := Subject.read_suffix hread
  have hskip : p.readArrow rest = none → p.read? cs = none := by
    intro hnone
    rw [Pattern.readArrow, Option.bind_eq_none_iff] at hnone
    cases hrest : skipPieces p.arrow rest with
    | none => simp [Pattern.read?, hread, hrest]
    | some rest' =>
      have htarget : p.target.read rest' = none := by simpa using hnone rest' hrest
      simp [Pattern.read?, hread, hrest, htarget]
  apply hskip
  cases hrest : skipPieces p.arrow rest with
  | none => rw [Pattern.readArrow, hrest, Option.bind_none]
  | some rest' =>
    have hsign := mem_of_skipPieces (drawn_of_mem p hp) hrest
    rw [h b rest hb (hsuffix.trans hcs) hhead hsign, hnone]

theorem read?_of_readArrow (hsubject : p.subject.read line = some (source, text))
    (harrow : p.readArrow text = some target) :
    p.read? line = some ⟨String.ofList source, String.ofList target, p.kind⟩ := by
  rw [Pattern.readArrow] at harrow
  obtain ⟨rest, hrest, htarget⟩ := Option.bind_eq_some_iff.1 harrow
  obtain ⟨⟨target, behind⟩, hread, rfl⟩ := Option.map_eq_some_iff.1 htarget
  simp [Pattern.read?, hsubject, hrest, hread]

/-- The row that decides about a line. -/
def decidingRow? (line : List Char) : Option Pattern :=
  patterns.find? fun p => (Scan.leftmost p.read? line).isSome

theorem findSome?_eq_bind {α β : Type} (f : α → Option β) (l : List α) :
    l.findSome? f = (l.find? fun a => (f a).isSome).bind f := by
  induction l with
  | nil => rfl
  | cons a l ih => cases h : f a <;> simp [h, ih]

theorem find?_eq (line : List Char) :
    find? line = (decidingRow? line).bind fun p => Scan.leftmost p.read? line :=
  findSome?_eq_bind _ patterns

theorem read?_of_firstRow (hrow : firstRow patterns text = some (p, target))
    (hsubject : p.subject.read line = some (source, text)) :
    p.read? line = some ⟨String.ofList source, String.ofList target, p.kind⟩ := by
  obtain ⟨q, -, hq⟩ := List.exists_of_findSome?_eq_some hrow
  obtain ⟨b, harrow, hpair⟩ := Option.map_eq_some_iff.1 hq
  obtain ⟨rfl, rfl⟩ := Prod.mk.inj hpair
  exact read?_of_readArrow hsubject harrow

theorem leftmost_of_firstRow (hrow : firstRow patterns text = some (p, target))
    (hsubject : p.subject.read line = some (source, text)) :
    Scan.leftmost p.read? line = some ⟨String.ofList source, String.ofList target, p.kind⟩ := by
  have hline : line ≠ [] := by
    obtain ⟨-, b, -, hsuffix⟩ := Subject.read_suffix hsubject
    rintro rfl
    exact List.cons_ne_nil b text (List.suffix_nil.1 hsuffix)
  exact Scan.leftmost_of_some hline (read?_of_firstRow hrow hsubject)

/-- The first row that reads the arrow of a line decides, whatever else stands in the line. -/
theorem decidingRow?_of_firstRow (h : OneArrow line text)
    (hrow : firstRow patterns text = some (p, target))
    (hsubject : p.subject.read line = some (source, text)) : decidingRow? line = some p := by
  have hread := leftmost_of_firstRow hrow hsubject
  obtain ⟨earlier, q, later, hrows, hq, hearlier⟩ := List.findSome?_eq_some_iff.1 hrow
  obtain ⟨b, -, hpair⟩ := Option.map_eq_some_iff.1 hq
  obtain ⟨rfl, -⟩ := Prod.mk.inj hpair
  refine List.find?_eq_some_iff_append.2 ⟨by rw [hread]; rfl, earlier, later, hrows, fun r hr => ?_⟩
  have hr' : r ∈ patterns := hrows ▸ List.mem_append_left _ hr
  rw [leftmost_of_oneArrow h hr' (by simpa using hearlier r hr)]
  rfl

theorem find?_of_firstRow (h : OneArrow line text) (hrow : firstRow patterns text = some (p, target))
    (hsubject : p.subject.read line = some (source, text)) :
    find? line = some ⟨String.ofList source, String.ofList target, p.kind⟩ := by
  rw [find?_eq, decidingRow?_of_firstRow h hrow hsubject, Option.bind_some,
    leftmost_of_firstRow hrow hsubject]

end ClassDiagram.Relation

namespace ClassDiagram.RelationKind

/-- The arrow that is written for a kind. -/
def arrow : RelationKind → String
  | inheritance => "<|--"
  | implementation => "<|.."
  | composition => "*--"
  | aggregation => "o--"
  | association => "-->"
  | dependency => "..>"
  | nested => "+--"

end ClassDiagram.RelationKind
