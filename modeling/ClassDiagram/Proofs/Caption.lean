import ClassDiagram.Proofs.ArrowForm
import ClassDiagram.Proofs.Member

/-! Captions. No row reads past the colon of a caption, so at every place of a line a row finds what
it finds without the caption. But the caption is searched, too, and a row that stands before the
deciding one and finds nothing in the line may find a relation there. -/

namespace ClassDiagram.Relation

open Text

variable {cs t : List Char} {c : Char} {p : Pattern}

/-! ### Closed texts -/

/-- A text in which each opened bracket is closed. -/
def Closed (cs : List Char) : Prop := ∀ rest, '[' :: rest <:+ cs → ']' ∈ rest

theorem Closed.suffix (h : Closed cs) (ht : t <:+ cs) : Closed t :=
  fun rest hrest => h rest (hrest.trans ht)

theorem Closed.behind_word {w : List Char} (h : Closed cs) (hword : Scan.word cs = some (w, t)) :
    Closed t := by
  obtain ⟨-, rfl⟩ := Scan.eq_of_word hword
  exact h.suffix (List.suffix_append w t)

theorem Closed.append (h : Closed cs) (ht : Closed t) : Closed (cs ++ t) := by
  intro rest hrest
  rcases cons_suffix_append hrest with hrest | ⟨a, ha, rfl⟩
  · exact ht rest hrest
  · exact List.mem_append_left t (h a ha)

theorem closed_of_not_mem (h : '[' ∉ cs) : Closed cs :=
  fun _ hrest => absurd (hrest.subset List.mem_cons_self) h

theorem closed_style (inner : List Char) : Closed ('[' :: (inner ++ [']'])) := by
  intro rest hrest
  rcases cons_suffix_append (a := '[' :: inner) hrest with hrest | ⟨a, -, rfl⟩
  · exact absurd (hrest.subset List.mem_cons_self) (by decide)
  · simp

theorem bracket_append (h : Closed cs) (hc : c ≠ '[') (t : List Char) :
    Scan.bracket (cs ++ c :: t) = (Scan.bracket cs).map fun q => (q.1, q.2 ++ c :: t) := by
  cases cs with
  | nil => simp [Scan.bracket, hc]
  | cons d cs =>
    by_cases hd : d = '['
    · subst hd
      obtain ⟨inner, rest, rfl, hinner⟩ := List.eq_append_cons_of_mem (h cs List.suffix_rfl)
      rw [Scan.bracket_closed hinner, List.cons_append, List.append_assoc, List.cons_append,
        Scan.bracket_closed hinner]
      rfl
    · simp [Scan.bracket, hd]

/-! ### Nothing is read past a colon -/

/-- The characters that a piece asks for by themselves. -/
def Piece.signs : Piece → List Char
  | text s => s.toList
  | run c => [c]
  | style | turn => []
  | turnedDots => ['.']

theorem not_mem_signs :
    ∀ p ∈ patterns, ∀ q ∈ p.arrow, ' ' ∉ q.signs ∧ ':' ∉ q.signs ∧ '[' ∉ q.signs := by decide

/-- A text that starts with `c` and at which every reader stops: its first character goes on with no
word and with no arrow, and neither starts behind the blanks in front of it. -/
structure IsBarrier (c : Char) (t : List Char) : Prop where
  word : isWordChar c = false
  bracket : c ≠ '['
  signs : ∀ p ∈ patterns, ∀ q ∈ p.arrow, c ∉ q.signs
  noWord : (trimStart (c :: t)).head?.any isWordChar = false
  noArrow : ∀ p ∈ patterns, p.readArrow (trimStart (c :: t)) = none

theorem isBarrier_colon (t : List Char) : IsBarrier ':' t where
  word := rfl
  bracket := by decide
  signs p hp q hq := (not_mem_signs p hp q hq).2.1
  noWord := rfl
  noArrow p hp := by
    have hnone : firstRow patterns (':' :: t) = none := rfl
    have htrim : trimStart (':' :: t) = ':' :: t := rfl
    simpa [htrim] using List.findSome?_eq_none_iff.1 hnone p hp

theorem isBarrier_space (t : List Char) : IsBarrier ' ' (':' :: t) where
  word := rfl
  bracket := by decide
  signs p hp q hq := (not_mem_signs p hp q hq).1
  noWord := rfl
  noArrow := (isBarrier_colon t).noArrow

theorem IsBarrier.turn (h : IsBarrier c t) : isTurn c = false := by
  refine Bool.eq_false_iff.2 fun hturn => ?_
  have hword := h.word
  rw [isWordChar_of_isTurn hturn] at hword
  contradiction

theorem IsBarrier.dash (h : IsBarrier c t) : c ≠ '-' := by
  rintro rfl
  exact h.signs patterns[0] (by decide) (.run '-') (by decide) (by decide)

theorem Piece.skip_append {q : Piece} (hb : IsBarrier c t) (hq : c ∉ q.signs) (h : Closed cs) :
    q.skip (cs ++ c :: t) = (q.skip cs).map (· ++ c :: t) := by
  have hrun {d : Char} (hd : c ≠ d) (a : List Char) :
      (Scan.run (· = d) (a ++ c :: t)).map Prod.snd =
        ((Scan.run (· = d) a).map Prod.snd).map (· ++ c :: t) := by
    rw [Scan.run_append_of_stop (by simpa using hd), Option.map_map, Option.map_map]
    rfl
  cases q with
  | text s => exact after?_append_cons hq cs t
  | run d => exact hrun (by simpa [signs] using hq) cs
  | style =>
    rw [skip, skip, bracket_append h hb.bracket, Option.map_map, Option.map_map]
    rfl
  | turn =>
    cases cs with
    | nil => simp [skip, hb.turn]
    | cons d cs =>
      simp only [List.cons_append, skip, Option.map_some]
      split <;> rfl
  | turnedDots =>
    -- The barrier is neither a dot nor a turning letter, so either form of the dots ends before it.
    have hdot : c ≠ '.' := by simpa [signs] using hq
    have hturned : skipTurnedDots (cs ++ c :: t) = (skipTurnedDots cs).map (· ++ c :: t) := by
      rw [skipTurnedDots, skipTurnedDots, Scan.run_append_of_stop (by simpa using hdot)]
      rcases Scan.run (· = '.') cs with _ | ⟨dots, _ | ⟨d, rest⟩⟩
      · rfl
      · simp [hb.turn]
      · cases hd : isTurn d
        · simp [hd]
        · simpa [hd] using hrun hdot rest
    have htwo : skipTwoDots (cs ++ c :: t) = (skipTwoDots cs).map (· ++ c :: t) := by
      cases cs with
      | nil => simp [skipTwoDots, hdot]
      | cons d cs =>
        by_cases hd : d = '.'
        · subst hd
          exact hrun hdot cs
        · simp [skipTwoDots, hd]
    rw [skip, skip, hturned, htwo]
    cases skipTurnedDots cs <;> rfl

theorem skipPieces_append {ps : List Piece} (hb : IsBarrier c t) (hps : ∀ q ∈ ps, c ∉ q.signs)
    (h : Closed cs) : skipPieces ps (cs ++ c :: t) = (skipPieces ps cs).map (· ++ c :: t) := by
  induction ps generalizing cs with
  | nil => rfl
  | cons q ps ih =>
    obtain ⟨hq, hps⟩ := List.forall_mem_cons.1 hps
    rw [skipPieces, skipPieces, q.skip_append hb hq h]
    cases hrest : q.skip cs with
    | none => rfl
    | some rest => exact ih hps (h.suffix (q.skip_suffix hrest))

/-- A reader that makes nothing of the end of a text, nothing of what stands behind it, and that is
not misled by that. -/
structure StopsAt {α : Type} (read : List Char → Option α) (cs tail : List Char) : Prop where
  nil : read [] = none
  behind : read (trimStart tail) = none
  append : ∀ s, s <:+ cs → read (s ++ tail) = read s

variable {α : Type} {read : List Char → Option α} {tail : List Char}

theorem StopsAt.trimStart (h : StopsAt read cs tail) :
    read (trimStart (cs ++ tail)) = read (trimStart cs) := by
  rw [Text.trimStart, Text.trimStart, List.dropWhile_append]
  split
  · next hempty =>
    rw [List.isEmpty_iff.1 hempty, h.nil]
    exact h.behind
  · exact h.append _ (List.dropWhile_suffix isBlank)

theorem StopsAt.someBlanks (h : StopsAt read cs tail) :
    ((Scan.someBlanks (cs ++ tail)).bind fun q => read q.2) =
      (Scan.someBlanks cs).bind fun q => read q.2 := by
  rw [Scan.someBlanks_bind, Scan.someBlanks_bind, h.trimStart]
  cases cs with
  | nil =>
    change (if tail.head?.any isBlank then read [] else none) = none
    rw [h.nil, ite_self]
  | cons c cs => rfl

theorem stopsAt_word (hb : IsBarrier c t) (cs : List Char) :
    StopsAt (fun cs => (Scan.word cs).map Prod.fst) cs (c :: t) where
  nil := rfl
  behind := by rw [Scan.word, Scan.run_none hb.noWord, Option.map_none]
  append s _ := by
    rw [Scan.word, Scan.run_append_of_stop (by simpa using hb.word), Option.map_map]
    rfl

theorem readDashed_append (hb : IsBarrier c t) (cs : List Char) :
    (readDashed (cs ++ c :: t)).map Prod.fst = (readDashed cs).map Prod.fst := by
  cases cs with
  | nil => simpa [readDashed, hb.dash] using (stopsAt_word hb []).trimStart
  | cons d cs =>
    by_cases hd : d = '-'
    · subst hd
      exact (stopsAt_word hb cs).trimStart
    · simpa [readDashed, hd] using (stopsAt_word hb (d :: cs)).trimStart

theorem Target.read_turned (c : Char) (cs : List Char) :
    (Target.turned.read (c :: cs)).map Prod.fst =
      if isTurn c then ((readDashed cs).map Prod.fst).or ((readDashed (c :: cs)).map Prod.fst)
      else (readDashed (c :: cs)).map Prod.fst := by
  rw [read]
  split
  · cases readDashed cs <;> rfl
  · rfl

theorem Target.read_append (target : Target) (hb : IsBarrier c t) (cs : List Char) :
    (target.read (cs ++ c :: t)).map Prod.fst = (target.read cs).map Prod.fst := by
  cases target with
  | near => exact (stopsAt_word hb cs).trimStart
  | spaced =>
    rw [read, read, Option.map_bind, Option.map_bind]
    exact (stopsAt_word hb cs).someBlanks
  | turned =>
    cases cs with
    | nil =>
      rw [List.nil_append, read_turned, hb.turn, if_neg Bool.false_ne_true]
      exact readDashed_append hb []
    | cons d cs =>
      have hcons : (readDashed (d :: (cs ++ c :: t))).map Prod.fst = _ :=
        readDashed_append hb (d :: cs)
      rw [List.cons_append, read_turned, read_turned, readDashed_append hb cs, hcons]

theorem Pattern.readArrow_append (hp : p ∈ patterns) (hb : IsBarrier c t) (h : Closed cs) :
    p.readArrow (cs ++ c :: t) = p.readArrow cs := by
  rw [readArrow, readArrow, skipPieces_append hb (hb.signs p hp) h, Option.bind_map]
  exact Option.bind_congr fun rest _ => p.target.read_append hb rest

/-- No arrow is empty. -/
theorem Pattern.stopsAt (hp : p ∈ patterns) (hb : IsBarrier c t) (h : Closed cs) :
    StopsAt p.readArrow cs (c :: t) where
  nil := by
    have hnone : firstRow patterns [] = none := rfl
    simpa using List.findSome?_eq_none_iff.1 hnone p hp
  behind := hb.noArrow p hp
  append _ hs := readArrow_append hp hb (h.suffix hs)

/-! ### A line and its caption -/

theorem skipMember_append (cs t : List Char) :
    skipMember (cs ++ ' ' :: t) = skipMember cs ++ ' ' :: t := by
  rw [skipMember, skipMember, after?_append_cons (by decide)]
  cases after? "::".toList cs with
  | none => rfl
  | some rest =>
    rw [Option.map_some, Option.bind_some, Option.bind_some, Scan.word_append_cons rfl]
    cases Scan.word rest <;> rfl

/-- The text in which a subject looks for the blanks behind it. -/
def Subject.behind : Subject → List Char → List Char
  | entity, cs => cs
  | member, cs => skipMember cs

theorem Subject.behind_suffix (s : Subject) (cs : List Char) : s.behind cs <:+ cs := by
  cases s
  · exact List.suffix_rfl
  · exact skipMember_suffix cs

theorem Subject.behind_append (s : Subject) (cs t : List Char) :
    s.behind (cs ++ ' ' :: t) = s.behind cs ++ ' ' :: t := by
  cases s
  · rfl
  · exact skipMember_append cs t

theorem Subject.read_eq (s : Subject) (cs : List Char) :
    s.read cs = (Scan.word cs).bind fun q =>
      (Scan.someBlanks (s.behind q.2)).bind fun gap => some (q.1, gap.2) := by
  cases s <;> rfl

theorem Pattern.read?_eq (p : Pattern) (cs : List Char) :
    p.read? cs = (Scan.word cs).bind fun q =>
      ((Scan.someBlanks (p.subject.behind q.2)).bind fun gap => p.readArrow gap.2).map fun target =>
        ⟨String.ofList q.1, String.ofList target, p.kind⟩ := by
  rw [read?, Subject.read_eq]
  rcases Scan.word cs with _ | ⟨source, rest⟩
  · rfl
  rcases hblanks : Scan.someBlanks (p.subject.behind rest) with _ | ⟨gap, arrow⟩
  · simp [hblanks]
  cases hrest : skipPieces p.arrow arrow with
  | none => simp [hblanks, readArrow, hrest]
  | some rest => cases htarget : p.target.read rest <;> simp [hblanks, readArrow, hrest, htarget]

theorem Pattern.read?_none_of_head (ht : t.head?.any isWordChar = false) (p : Pattern) :
    p.read? t = none := by
  rw [read?_eq, Scan.word, Scan.run_none ht, Option.bind_none]

theorem Pattern.read?_append (hp : p ∈ patterns) (h : Closed cs) (t : List Char) :
    p.read? (cs ++ ' ' :: ':' :: t) = p.read? cs := by
  rw [read?_eq, read?_eq, Scan.word_append_cons rfl, Option.bind_map]
  refine Option.bind_congr fun q hq => ?_
  have hbehind : Closed (p.subject.behind q.2) :=
    (h.behind_word hq).suffix (Subject.behind_suffix _ _)
  dsimp only [Function.comp]
  rw [Subject.behind_append, (stopsAt hp (isBarrier_space t) hbehind).someBlanks]

/-- A line with a caption behind it. -/
def captioned (line caption : List Char) : List Char := line ++ " : ".toList ++ caption

/-- A row finds in a captioned line what it finds in the line, or else what it finds in the caption. -/
theorem leftmost_captioned (hp : p ∈ patterns) (h : Closed cs) (caption : List Char) :
    Scan.leftmost p.read? (captioned cs caption) =
      (Scan.leftmost p.read? cs).or (Scan.leftmost p.read? caption) := by
  have hcolon : ∀ c ∈ " : ".toList, isWordChar c = false := by
    have hall : (" : ".toList.all fun c => !isWordChar c) = true := rfl
    exact fun c hc => by simpa using List.all_eq_true.1 hall c hc
  rw [captioned, List.append_assoc, Scan.leftmost_append, Markup.leftmost_skip (fun _ ht => p.read?_none_of_head ht) hcolon]
  exact fun s _ hs => Pattern.read?_append hp (h.suffix hs) (' ' :: caption)

/-- The rows that find nothing in a line and stand before the first one that finds something. -/
def passedOver (line : List Char) : List Pattern :=
  patterns.takeWhile fun p => (Scan.leftmost p.read? line).isNone

theorem findSome?_or {α β : Type} {f g both : α → Option β} {b : β} {l : List α}
    (hboth : ∀ a ∈ l, both a = (f a).or (g a)) (h : l.findSome? f = some b) :
    l.findSome? both = some (((l.takeWhile fun a => (f a).isNone).findSome? g).getD b) := by
  induction l with
  | nil => contradiction
  | cons a l ih =>
    obtain ⟨ha, hl⟩ := List.forall_mem_cons.1 hboth
    cases hf : f a with
    | some b' =>
      obtain rfl : b' = b := by simpa [hf] using h
      simp [ha, hf]
    | none =>
      have hrest := ih hl (by simpa [hf] using h)
      cases hg : g a with
      | some b' => simp [ha, hf, hg]
      | none => simpa [ha, hf, hg] using hrest

theorem find?_closed {r : Relation} (h : Closed cs) (hfind : find? cs = some r)
    (caption : List Char) : find? (captioned cs caption) =
      some (((passedOver cs).findSome? fun p => Scan.leftmost p.read? caption).getD r) :=
  findSome?_or (fun _ hp => leftmost_captioned hp h caption) hfind

/-! ### The spellings of the table -/

/-- The texts that a piece of an arrow stands for. -/
inductive Piece.Spells : Piece → List Char → Prop where
  | text (s : String) : Spells (.text s) s.toList
  | run (c : Char) (n : ℕ) : Spells (.run c) (stroke c n)
  | style {inner : List Char} (h : ']' ∉ inner) : Spells .style ('[' :: (inner ++ [']']))
  | turn (turn : Option Turn) : Spells .turn (turnText turn)
  | dots (n : ℕ) : Spells .turnedDots (stroke '.' (n + 1))
  | turnedDots (n : ℕ) (turn : Turn) (n' : ℕ) :
    Spells .turnedDots (stroke '.' n ++ turn.char :: stroke '.' n')

/-- The spellings of an arrow, piece by piece; the last target has signs of its own. -/
inductive SpellsArrow : List Piece → Target → List Char → Prop where
  | near : SpellsArrow [] .near []
  | spaced : SpellsArrow [] .spaced []
  | turned (turn : Option Turn) (dash : Bool) :
    SpellsArrow [] .turned (turnText turn ++ dashText dash)
  | cons {q : Piece} {ps : List Piece} {target : Target} {s t : List Char} (hq : q.Spells s)
    (ht : SpellsArrow ps target t) : SpellsArrow (q :: ps) target (s ++ t)

/-- Whether some row of the table spells its arrow so. -/
def IsSpelling (s : List Char) : Prop := ∃ p ∈ patterns, SpellsArrow p.arrow p.target s

theorem closed_turn (turn : Option Turn) : Closed (turnText turn) := by
  refine closed_of_not_mem ?_
  rcases turn with _ | ⟨_ | _ | _ | _⟩ <;> decide

theorem closed_stroke {c : Char} (hc : '[' ≠ c) (n : ℕ) : Closed (stroke c n) :=
  closed_of_not_mem fun h => hc (List.eq_of_mem_replicate h)

theorem Piece.Spells.closed {q : Piece} {s : List Char} (h : q.Spells s) (hq : '[' ∉ q.signs) :
    Closed s := by
  cases h with
  | text s => exact closed_of_not_mem hq
  | run c n => exact closed_stroke (by simpa [signs] using hq) n
  | style h => exact closed_style _
  | turn turn => exact closed_turn turn
  | dots n => exact closed_stroke (by decide) _
  | turnedDots n turn n' =>
    refine (closed_stroke (by decide) n).append (closed_of_not_mem ?_)
    rw [List.mem_cons, not_or]
    exact ⟨by cases turn <;> decide, fun h => absurd (List.eq_of_mem_replicate h) (by decide)⟩

theorem SpellsArrow.closed {ps : List Piece} {target : Target} {s : List Char}
    (h : SpellsArrow ps target s) (hps : ∀ q ∈ ps, '[' ∉ q.signs) : Closed s := by
  induction h with
  | near | spaced => exact closed_of_not_mem List.not_mem_nil
  | turned turn dash =>
    exact (closed_turn turn).append (closed_of_not_mem (by cases dash <;> decide))
  | cons hq _ ih =>
    obtain ⟨hsigns, hps⟩ := List.forall_mem_cons.1 hps
    exact (hq.closed hsigns).append (ih hps)

theorem IsSpelling.closed {s : List Char} (h : IsSpelling s) : Closed s := by
  obtain ⟨p, hp, hs⟩ := h
  exact hs.closed fun q hq => (not_mem_signs p hp q hq).2.2

/-- Two names with an arrow between them. -/
def joined (a s b : List Char) : List Char := a ++ ' ' :: (s ++ ' ' :: b)

theorem closed_joined {a s b : List Char} (ha : IsWord a) (hs : IsSpelling s) (hb : IsWord b) :
    Closed (joined a s b) := by
  have hword {w : List Char} (hw : IsWord w) : Closed w := closed_of_not_mem (hw.not_mem rfl)
  have hspace : Closed [' '] := closed_of_not_mem (by decide)
  exact (hword ha).append (hspace.append (hs.closed.append (hspace.append (hword hb))))

/--
A caption leaves the relation of its line alone, unless a row that stands before the deciding one,
and so finds nothing in the line, finds a relation in the caption; the first such row decides then.
-/
theorem find?_joined_captioned {a s b : List Char} {r : Relation} (ha : IsWord a) (hb : IsWord b)
    (hs : IsSpelling s) (hr : find? (joined a s b) = some r) (caption : List Char) :
    find? (captioned (joined a s b) caption) =
        some (((passedOver (joined a s b)).findSome? fun p => Scan.leftmost p.read? caption).getD r) ∧
      (find? caption = none → find? (captioned (joined a s b) caption) = some r) := by
  have hfind := find?_closed (closed_joined ha hs hb) hr caption
  refine ⟨hfind, fun hnone => ?_⟩
  have hpassed : (passedOver (joined a s b)).findSome? (fun p => Scan.leftmost p.read? caption) =
      none := by
    rw [List.findSome?_eq_none_iff]
    intro p hp
    exact List.findSome?_eq_none_iff.1 hnone p (List.takeWhile_subset _ hp)
  rw [hfind, hpassed, Option.getD_none]

theorem isSpelling_nest : IsSpelling "+--".toList :=
  ⟨patterns[23], by decide, .cons (.text "+--") .spaced⟩

theorem find?_joined_nest : find? (joined "A".toList "+--".toList "B".toList) =
    some ⟨"A", "B", .nested⟩ := by decide

theorem find?_joined_captioned_nest :
    find? "A +-- B : part -- whole".toList = some ⟨"part", "whole", .association⟩ ∧
      find? "A +-- B : is a part of".toList = some ⟨"A", "B", .nested⟩ := by
  have hword : IsWord "A".toList ∧ IsWord "B".toList := by decide
  have hline := find?_joined_captioned hword.1 hword.2 isSpelling_nest find?_joined_nest
  exact ⟨(hline "part -- whole".toList).1.trans (by decide),
    (hline "is a part of".toList).2 (by decide)⟩

theorem not_find?_captioned : ¬ ∀ (a s b caption : List Char) (r : Relation),
    IsWord a → IsWord b → IsSpelling s → find? (joined a s b) = some r → '\n' ∉ caption →
      find? (captioned (joined a s b) caption) = some r := by
  intro h
  have hfalse := h "A".toList "+--".toList "B".toList "part -- whole".toList ⟨"A", "B", .nested⟩
    (by decide) (by decide) isSpelling_nest find?_joined_nest (by decide)
  exact absurd hfalse (by decide)

end ClassDiagram.Relation
