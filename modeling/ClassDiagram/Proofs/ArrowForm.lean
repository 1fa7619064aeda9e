import ClassDiagram.Proofs.Arrow
import Mathlib.Data.Nat.Notation

/-! The arrows of the documentation, with their lengths, styles and turning letters, and the row of
the table that reads each of them. The first signs of an arrow leave few rows to look at. -/

namespace ClassDiagram.Relation

open Text

/-! ### The arrows -/

/-- One or more of a character. -/
def stroke (c : Char) (n : ℕ) : List Char := List.replicate (n + 1) c

theorem stroke_append (c : Char) (n : ℕ) (t : List Char) :
    stroke c n ++ t = c :: (List.replicate n c ++ t) := rfl

/-- The style of an arrow: a text without blanks, between square brackets. -/
structure Label where
  chars : List Char
  plain : Plain chars
  bracket : ']' ∉ chars

def Label.text (m : Label) : List Char := '[' :: (m.chars ++ [']'])

/-- A turning letter. -/
inductive Turn where
  | up
  | down
  | left
  | right
  deriving DecidableEq, Repr

def Turn.char : Turn → Char
  | up => 'u'
  | down => 'd'
  | left => 'l'
  | right => 'r'

def turnText (turn : Option Turn) : List Char := (turn.map Turn.char).toList

def dashText (dash : Bool) : List Char := if dash then ['-'] else []

/-- The filled diamond of a composition and the hollow one of an aggregation. -/
inductive Diamond where
  | filled
  | hollow
  deriving DecidableEq, Repr

def Diamond.char : Diamond → Char
  | filled => '*'
  | hollow => 'o'

def Diamond.kind : Diamond → RelationKind
  | filled => .composition
  | hollow => .aggregation

/-- The arrows, with the lengths of their strokes beyond the first sign. -/
inductive Arrow where
  /-- `<|--d` -/
  | inherit (n : ℕ) (turn : Option Turn)
  /-- `<|--[m]d-` -/
  | inheritStyled (n : ℕ) (m : Label) (turn : Option Turn) (dash : Bool)
  /-- `<|..` -/
  | implement (n : ℕ)
  /-- `<|.d.` -/
  | implementTurned (n : ℕ) (turn : Turn) (n' : ℕ)
  /-- `<|..[m]` -/
  | implementStyled (n : ℕ) (m : Label)
  /-- `<|.[m]d.` -/
  | implementStyledDots (n : ℕ) (m : Label) (turn : Option Turn) (n' : ℕ)
  /-- `*--` and `o--` -/
  | diamond (d : Diamond)
  /-- `--*` and `--o` -/
  | diamondBehind (d : Diamond)
  /-- `*-[m]d-` and `o-[m]d-` -/
  | diamondStyled (d : Diamond) (n : ℕ) (m : Label) (turn : Option Turn) (dash : Bool)
  /-- `-[m]d*` and `-[m]do` -/
  | diamondBehindStyled (d : Diamond) (n : ℕ) (m : Label) (turn : Option Turn)
  /-- `o..` -/
  | hollowDots (n : ℕ)
  /-- `-->` -/
  | forth
  /-- `<--` -/
  | back
  /-- `--` -/
  | line
  /-- `-[m]d>` -/
  | forthStyled (n : ℕ) (m : Label) (turn : Option Turn)
  /-- `<-[m]d-` -/
  | backStyled (n : ℕ) (m : Label) (turn : Option Turn) (dash : Bool)
  /-- `-[m]d-` -/
  | lineStyled (n : ℕ) (m : Label) (turn : Option Turn) (dash : Bool)
  /-- `..>` -/
  | depend (n : ℕ)
  /-- `+--` -/
  | nest

namespace Arrow

def kind : Arrow → RelationKind
  | inherit _ _ | inheritStyled _ _ _ _ => .inheritance
  | implement _ | implementTurned _ _ _ | implementStyled _ _ | implementStyledDots _ _ _ _ =>
    .implementation
  | diamond d | diamondBehind d | diamondStyled d _ _ _ _ | diamondBehindStyled d _ _ _ => d.kind
  | hollowDots _ => .aggregation
  | forth | back | line | forthStyled _ _ _ | backStyled _ _ _ _ | lineStyled _ _ _ _ =>
    .association
  | depend _ => .dependency
  | nest => .nested

def text : Arrow → List Char
  | inherit n turn => '<' :: '|' :: stroke '-' n ++ turnText turn
  | inheritStyled n m turn dash =>
    '<' :: '|' :: stroke '-' n ++ m.text ++ turnText turn ++ dashText dash
  | implement n => '<' :: '|' :: stroke '.' n
  | implementTurned n turn n' => '<' :: '|' :: stroke '.' n ++ turn.char :: stroke '.' n'
  | implementStyled n m => '<' :: '|' :: stroke '.' n ++ m.text
  | implementStyledDots n m turn n' =>
    '<' :: '|' :: stroke '.' n ++ m.text ++ turnText turn ++ stroke '.' n'
  | diamond d => [d.char, '-', '-']
  | diamondBehind d => ['-', '-', d.char]
  | diamondStyled d n m turn dash =>
    d.char :: stroke '-' n ++ m.text ++ turnText turn ++ dashText dash
  | diamondBehindStyled d n m turn => stroke '-' n ++ m.text ++ turnText turn ++ [d.char]
  | hollowDots n => 'o' :: stroke '.' n
  | forth => ['-', '-', '>']
  | back => ['<', '-', '-']
  | line => ['-', '-']
  | forthStyled n m turn => stroke '-' n ++ m.text ++ turnText turn ++ ['>']
  | backStyled n m turn dash => '<' :: stroke '-' n ++ m.text ++ turnText turn ++ dashText dash
  | lineStyled n m turn dash => stroke '-' n ++ m.text ++ turnText turn ++ dashText dash
  | depend n => stroke '.' n ++ ['>']
  | nest => ['+', '-', '-']

end Arrow

/-! ### Texts without blanks -/

@[simp] theorem isBlank_signs : isBlank '-' = false ∧ isBlank '.' = false ∧ isBlank '*' = false ∧
    isBlank 'o' = false ∧ isBlank '>' = false := by
  decide

@[simp] theorem plain_stroke {c : Char} (hc : isBlank c = false) (n : ℕ) : Plain (stroke c n) := by
  intro d hd
  rw [List.eq_of_mem_replicate hd, hc]

@[simp] theorem Label.plain_text (m : Label) : Plain m.text := by
  have hbrackets : isBlank '[' = false ∧ isBlank ']' = false := by decide
  simp [Label.text, m.plain, hbrackets]

@[simp] theorem plain_turn (turn : Option Turn) : Plain (turnText turn) := by
  rcases turn with _ | ⟨_ | _ | _ | _⟩ <;> decide

@[simp] theorem plain_dash (dash : Bool) : Plain (dashText dash) := by
  cases dash <;> decide

theorem Arrow.plain_text (a : Arrow) : Plain a.text := by
  have hdiamond (d : Diamond) : isBlank d.char = false := by cases d <;> rfl
  have hturn (turn : Turn) : isBlank turn.char = false := by cases turn <;> rfl
  have hsigns : isBlank '<' = false ∧ isBlank '|' = false ∧ isBlank '+' = false := by decide
  cases a <;> simp [Arrow.text, hdiamond, hturn, hsigns]

/-! ### The rows that may read an arrow, by its first signs -/

theorem firstRow_triangle_dash (t : List Char) :
    firstRow patterns ('<' :: '|' :: '-' :: t) =
      firstRow [patterns[0], patterns[1], patterns[2]] ('<' :: '|' :: '-' :: t) := rfl

theorem firstRow_triangle_dot (t : List Char) :
    firstRow patterns ('<' :: '|' :: '.' :: t) =
      firstRow [patterns[3], patterns[4], patterns[5], patterns[6]] ('<' :: '|' :: '.' :: t) := rfl

theorem firstRow_back (t : List Char) :
    firstRow patterns ('<' :: '-' :: t) = firstRow [patterns[17], patterns[19]] ('<' :: '-' :: t) :=
  rfl

theorem firstRow_filled (t : List Char) :
    firstRow patterns ('*' :: t) = firstRow [patterns[7], patterns[9]] ('*' :: t) := rfl

theorem firstRow_hollow_dash (t : List Char) :
    firstRow patterns ('o' :: '-' :: t) = firstRow [patterns[11], patterns[13]] ('o' :: '-' :: t) :=
  rfl

theorem firstRow_hollow_dot (t : List Char) :
    firstRow patterns ('o' :: '.' :: t) = firstRow [patterns[15]] ('o' :: '.' :: t) := rfl

theorem firstRow_dash (t : List Char) :
    firstRow patterns ('-' :: t) = firstRow [patterns[8], patterns[10], patterns[12], patterns[14],
      patterns[16], patterns[18], patterns[21], patterns[22]] ('-' :: t) := rfl

theorem firstRow_dot (t : List Char) :
    firstRow patterns ('.' :: t) = firstRow [patterns[20]] ('.' :: t) := rfl

theorem firstRow_plus (t : List Char) :
    firstRow patterns ('+' :: t) = firstRow [patterns[23]] ('+' :: t) := rfl

/-! ### What the pieces of a row skip -/

variable {c : Char} {n : ℕ} {t : List Char}

/-- A text that starts with a blank. -/
def AtGap (t : List Char) : Prop := t.head?.any isBlank = true

@[simp] theorem isTurn_signs : isTurn '.' = false ∧ isTurn '[' = false ∧ isTurn '*' = false ∧
    isTurn 'o' = false ∧ isTurn '>' = false := by
  decide

@[simp] theorem Turn.char_ne (turn : Turn) (hc : isTurn c = false) : turn.char ≠ c := by
  rintro rfl
  cases turn <;> contradiction

theorem AtGap.head (h : AtGap t) (hc : isBlank c = false) : t.head? ≠ some c := by
  intro ht
  simp [AtGap, ht, hc] at h

theorem skip_run_none (h : t.head? ≠ some c) : (Piece.run c).skip t = none := by
  rw [Piece.skip, Scan.run_none (by cases t <;> simp_all), Option.map_none]

theorem run_stroke (h : t.head? ≠ some c) :
    Scan.run (· = c) (stroke c n ++ t) = some (stroke c n, t) := by
  apply Scan.run_append
  · intro d hd
    simpa using List.eq_of_mem_replicate hd
  · simp [stroke]
  · cases t <;> simp_all

theorem skip_stroke (h : t.head? ≠ some c) : (Piece.run c).skip (stroke c n ++ t) = some t := by
  rw [Piece.skip, run_stroke h, Option.map_some]

theorem skip_style_none (h : t.head? ≠ some '[') : Piece.style.skip t = none := by
  rw [Piece.skip, Scan.bracket]
  · rfl
  · rintro cs rfl
    exact h rfl

@[simp] theorem skip_text (s : String) (t : List Char) : (Piece.text s).skip t = after? s.toList t :=
  rfl

@[simp] theorem skip_label (m : Label) (t : List Char) :
    Piece.style.skip (m.text ++ t) = some t := by
  have htext : m.text ++ t = '[' :: (m.chars ++ ']' :: t) := by simp [Label.text]
  rw [htext, Piece.skip, Scan.bracket_closed m.bracket, Option.map_some]

@[simp] theorem skip_style_gap (h : AtGap t) : Piece.style.skip t = none :=
  skip_style_none (h.head rfl)

@[simp] theorem skip_style_cons {d : Char} (hd : d ≠ '[') (t : List Char) :
    Piece.style.skip (d :: t) = none := skip_style_none fun h => hd (Option.some.inj h)

@[simp] theorem skip_style_turn (h : AtGap t) (turn : Option Turn) :
    Piece.style.skip (turnText turn ++ t) = none := by
  rcases turn with _ | turn
  · exact skip_style_gap h
  · cases turn <;> rfl

@[simp] theorem skip_stroke_label (hc : c ≠ '[') (m : Label) (n : ℕ) (t : List Char) :
    (Piece.run c).skip (stroke c n ++ (m.text ++ t)) = some (m.text ++ t) :=
  skip_stroke fun h => hc (Option.some.inj h).symm

@[simp] theorem skip_stroke_gap (h : AtGap t) (hc : isBlank c = false) (n : ℕ) :
    (Piece.run c).skip (stroke c n ++ t) = some t := skip_stroke (h.head hc)

@[simp] theorem skip_stroke_cons {d : Char} (hd : d ≠ c) (n : ℕ) (t : List Char) :
    (Piece.run c).skip (stroke c n ++ d :: t) = some (d :: t) :=
  skip_stroke fun h => hd (Option.some.inj h)

@[simp] theorem skip_run_gap (h : AtGap t) (hc : isBlank c = false) :
    (Piece.run c).skip t = none := skip_run_none (h.head hc)

@[simp] theorem skip_stroke_turn (h : AtGap t) (turn : Option Turn) (n : ℕ) :
    (Piece.run '-').skip (stroke '-' n ++ (turnText turn ++ t)) = some (turnText turn ++ t) := by
  apply skip_stroke
  rcases turn with _ | turn
  · exact h.head rfl
  · cases turn <;> simp [turnText, Turn.char]

@[simp] theorem skip_two_gap (h : AtGap t) (hc : isBlank c = false) :
    (Piece.run c).skip (c :: c :: t) = some t := skip_stroke_gap h hc 1

@[simp] theorem skip_two_cons {d : Char} (hd : d ≠ c) (t : List Char) :
    (Piece.run c).skip (c :: c :: d :: t) = some (d :: t) := skip_stroke_cons hd 1 t

/-- One dot, or dots that a turning letter does not follow, are no turned dots. -/
theorem skip_turnedDots_stroke (hdot : t.head? ≠ some '.') (hturn : t.head?.any isTurn = false)
    (n : ℕ) : Piece.turnedDots.skip (stroke '.' n ++ t) = if n = 0 then none else some t := by
  have hnone : skipTurnedDots (stroke '.' n ++ t) = none := by
    rw [skipTurnedDots, run_stroke hdot]
    cases t <;> simp_all
  rw [Piece.skip, hnone]
  cases n with
  | zero =>
    have hrun : Scan.run (· = '.') t = none := Scan.run_none (by cases t <;> simp_all)
    change (Scan.run (· = '.') t).map Prod.snd = none
    rw [hrun, Option.map_none]
  | succ n =>
    change (Scan.run (· = '.') (stroke '.' n ++ t)).map Prod.snd = some t
    rw [run_stroke hdot, Option.map_some]

theorem skip_turn (turn : Option Turn) (h : t.head?.any isTurn = false) :
    Piece.turn.skip (turnText turn ++ t) = some t := by
  rcases turn with _ | turn
  · cases t <;> simp_all [turnText, Piece.skip]
  · cases turn <;> rfl

theorem AtGap.word (h : AtGap t) : t.head?.any isWordChar = false := by
  rw [Option.any_eq_false]
  intro c hc
  by_contra hword
  rw [Bool.not_eq_false] at hword
  exact h.head (isBlank_of_isWordChar hword) hc

theorem AtGap.turn (h : AtGap t) : t.head?.any isTurn = false := by
  rw [Option.any_eq_false]
  intro c hc
  by_contra hturn
  rw [Bool.not_eq_false] at hturn
  exact h.head (isBlank_of_isWordChar (isWordChar_of_isTurn hturn)) hc

@[simp] theorem skip_turnedDots_gap (h : AtGap t) (n : ℕ) :
    Piece.turnedDots.skip (stroke '.' n ++ t) = if n = 0 then none else some t :=
  skip_turnedDots_stroke (h.head rfl) h.turn n

@[simp] theorem skip_turnedDots_label (m : Label) (t : List Char) (n : ℕ) :
    Piece.turnedDots.skip (stroke '.' n ++ (m.text ++ t)) =
      if n = 0 then none else some (m.text ++ t) :=
  skip_turnedDots_stroke (by simp [Label.text]) rfl n

@[simp] theorem skip_turnedDots_turn (h : AtGap t) (turn : Turn) (n n' : ℕ) :
    Piece.turnedDots.skip (stroke '.' n ++ turn.char :: (stroke '.' n' ++ t)) = some t := by
  have hdot : (turn.char :: (stroke '.' n' ++ t)).head? ≠ some '.' := by simp
  have hturn : isTurn turn.char = true := by cases turn <;> rfl
  have hread : skipTurnedDots (stroke '.' n ++ turn.char :: (stroke '.' n' ++ t)) = some t := by
    rw [skipTurnedDots, run_stroke hdot]
    simp [hturn, run_stroke (h.head (c := '.') rfl)]
  rw [Piece.skip, hread]

@[simp] theorem read_near_label (m : Label) (t : List Char) :
    Target.near.read (m.text ++ t) = none := rfl

@[simp] theorem skip_turn_gap (h : AtGap t) (turn : Option Turn) :
    Piece.turn.skip (turnText turn ++ t) = some t := skip_turn turn h.turn

@[simp] theorem skip_turn_none (h : AtGap t) : Piece.turn.skip t = some t := skip_turn_gap h none

@[simp] theorem skip_turn_stroke (turn : Option Turn) (n : ℕ) (t : List Char) :
    Piece.turn.skip (turnText turn ++ (stroke '.' n ++ t)) = some (stroke '.' n ++ t) :=
  skip_turn turn rfl

@[simp] theorem skip_turn_cons {d : Char} (hd : isTurn d = false) (turn : Option Turn)
    (t : List Char) : Piece.turn.skip (turnText turn ++ d :: t) = some (d :: t) :=
  skip_turn turn hd

@[simp] theorem after?_gap (h : AtGap t) (hc : isBlank c = false) (p : List Char) :
    after? (c :: p) t = none := by
  cases t with
  | nil => rfl
  | cons d t =>
    have hne : c ≠ d := fun hcd => h.head hc (by rw [hcd]; rfl)
    rw [after?, if_neg hne]

@[simp] theorem skip_turn_dash (h : AtGap t) (turn : Option Turn) (dash : Bool) :
    Piece.turn.skip (turnText turn ++ (dashText dash ++ t)) = some (dashText dash ++ t) := by
  cases dash
  · exact skip_turn_gap h turn
  · exact skip_turn turn rfl

@[simp] theorem after?_dash (h : AtGap t) (hc : isBlank c = false) (hd : c ≠ '-') (dash : Bool)
    (p : List Char) : after? (c :: p) (dashText dash ++ t) = none := by
  cases dash
  · exact after?_gap h hc p
  · exact if_neg hd

/-- Two dashes and a sign are not read from a styled line. -/
@[simp] theorem after?_stroke_label (hc : c ≠ '-') (hc' : c ≠ '[') (m : Label) (n : ℕ)
    (t : List Char) : after? ['-', '-', c] (stroke '-' n ++ (m.text ++ t)) = none := by
  rcases n with _ | _ | n
  · rfl
  · exact if_neg hc'
  · exact if_neg hc

/-- What stands behind an arrow: blanks, and a name that each kind of target reads. -/
structure Tail (t target : List Char) : Prop where
  gap : AtGap t
  spaced : (Target.spaced.read t).map Prod.fst = some target
  near : (Target.near.read t).map Prod.fst = some target
  turned : ∀ turn dash,
    (Target.turned.read (turnText turn ++ (dashText dash ++ t))).map Prod.fst = some target

/-! ### The row of each arrow -/

/-- The row of the table that reads an arrow. -/
def Arrow.row : Arrow → Pattern
  | inherit _ _ => patterns[1]
  | inheritStyled _ _ _ _ => patterns[0]
  | implement 0 => patterns[6]
  | implement (_ + 1) => patterns[4]
  | implementTurned _ _ _ => patterns[4]
  | implementStyled _ _ => patterns[5]
  | implementStyledDots _ _ _ _ => patterns[3]
  | diamond .filled => patterns[9]
  | diamond .hollow => patterns[13]
  | diamondBehind .filled => patterns[10]
  | diamondBehind .hollow => patterns[14]
  | diamondStyled .filled _ _ _ _ => patterns[7]
  | diamondStyled .hollow _ _ _ _ => patterns[11]
  | diamondBehindStyled .filled _ _ _ => patterns[8]
  | diamondBehindStyled .hollow _ _ _ => patterns[12]
  | hollowDots _ => patterns[15]
  | forth => patterns[18]
  | back => patterns[19]
  | line => patterns[22]
  | forthStyled _ _ _ => patterns[16]
  | backStyled _ _ _ _ => patterns[17]
  | lineStyled _ _ _ _ => patterns[21]
  | depend _ => patterns[20]
  | nest => patterns[23]

theorem Arrow.row_kind (a : Arrow) : a.row.kind = a.kind := by
  rcases a with _ | _ | _ | _ | _ | _ | d | d | d | d
  case implement n => cases n <;> rfl
  case diamond | diamondBehind | diamondStyled | diamondBehindStyled => cases d <;> rfl
  all_goals rfl

variable {target : List Char}

theorem firstRow_inherit (h : Tail t target) (n : ℕ) (turn : Option Turn) :
    firstRow patterns ((Arrow.inherit n turn).text ++ t) = some (patterns[1], target) := by
  simp only [Arrow.text, List.cons_append, List.append_assoc]
  rw [stroke_append, firstRow_triangle_dash, ← stroke_append]
  simp [firstRow_cons, patterns, Pattern.readArrow, skipPieces, after?, h.gap, h.spaced]

theorem firstRow_inheritStyled (h : Tail t target) (n : ℕ) (m : Label) (turn : Option Turn)
    (dash : Bool) : firstRow patterns ((Arrow.inheritStyled n m turn dash).text ++ t) =
      some (patterns[0], target) := by
  simp only [Arrow.text, List.cons_append, List.append_assoc]
  rw [stroke_append, firstRow_triangle_dash, ← stroke_append]
  simp [firstRow_cons, patterns, Pattern.readArrow, skipPieces, after?, h.turned]

/-- The arrows of an implementation, of which a single dot has a row of its own. -/
theorem firstRow_implement (h : Tail t target) (n : ℕ) :
    firstRow patterns ((Arrow.implement n).text ++ t) =
      some ((Arrow.implement n).row, target) := by
  simp only [Arrow.text, List.cons_append]
  rw [stroke_append, firstRow_triangle_dot, ← stroke_append]
  cases n <;> simp [firstRow_cons, patterns, Pattern.readArrow, skipPieces, after?, Arrow.row,
    h.gap, h.near, h.spaced]

theorem firstRow_implementTurned (h : Tail t target) (n : ℕ) (turn : Turn) (n' : ℕ) :
    firstRow patterns ((Arrow.implementTurned n turn n').text ++ t) =
      some (patterns[4], target) := by
  simp only [Arrow.text, List.cons_append, List.append_assoc]
  rw [stroke_append, firstRow_triangle_dot, ← stroke_append]
  simp [firstRow_cons, patterns, Pattern.readArrow, skipPieces, after?, h.gap, h.near]

theorem firstRow_implementStyled (h : Tail t target) (n : ℕ) (m : Label) :
    firstRow patterns ((Arrow.implementStyled n m).text ++ t) = some (patterns[5], target) := by
  simp only [Arrow.text, List.cons_append, List.append_assoc]
  rw [stroke_append, firstRow_triangle_dot, ← stroke_append]
  cases n <;> simp [firstRow_cons, patterns, Pattern.readArrow, skipPieces, after?, h.gap, h.near]

theorem firstRow_implementStyledDots (h : Tail t target) (n : ℕ) (m : Label) (turn : Option Turn)
    (n' : ℕ) : firstRow patterns ((Arrow.implementStyledDots n m turn n').text ++ t) =
      some (patterns[3], target) := by
  simp only [Arrow.text, List.cons_append, List.append_assoc]
  rw [stroke_append, firstRow_triangle_dot, ← stroke_append]
  simp [firstRow_cons, patterns, Pattern.readArrow, skipPieces, after?, h.gap, h.near]

theorem firstRow_diamond (h : Tail t target) (d : Diamond) :
    firstRow patterns ((Arrow.diamond d).text ++ t) = some ((Arrow.diamond d).row, target) := by
  simp only [Arrow.text, List.cons_append, List.nil_append]
  cases d
  · rw [Diamond.char, firstRow_filled]
    simp [firstRow_cons, patterns, Pattern.readArrow, skipPieces, after?, Arrow.row, h.gap,
      h.spaced]
  · rw [Diamond.char, firstRow_hollow_dash]
    simp [firstRow_cons, patterns, Pattern.readArrow, skipPieces, after?, Arrow.row, h.gap,
      h.spaced]

theorem firstRow_diamondBehind (h : Tail t target) (d : Diamond) :
    firstRow patterns ((Arrow.diamondBehind d).text ++ t) =
      some ((Arrow.diamondBehind d).row, target) := by
  simp only [Arrow.text, List.cons_append, List.nil_append]
  rw [firstRow_dash]
  cases d <;> simp [firstRow_cons, patterns, Pattern.readArrow, skipPieces, after?, Diamond.char,
    Arrow.row, h.spaced]

theorem firstRow_diamondStyled (h : Tail t target) (d : Diamond) (n : ℕ) (m : Label)
    (turn : Option Turn) (dash : Bool) :
    firstRow patterns ((Arrow.diamondStyled d n m turn dash).text ++ t) =
      some ((Arrow.diamondStyled d n m turn dash).row, target) := by
  simp only [Arrow.text, List.cons_append, List.append_assoc]
  cases d
  · rw [Diamond.char, firstRow_filled]
    simp [firstRow_cons, patterns, Pattern.readArrow, skipPieces, after?, Arrow.row, h.turned]
  · rw [Diamond.char, stroke_append, firstRow_hollow_dash, ← stroke_append]
    simp [firstRow_cons, patterns, Pattern.readArrow, skipPieces, after?, Arrow.row, h.turned]

theorem firstRow_diamondBehindStyled (h : Tail t target) (d : Diamond) (n : ℕ) (m : Label)
    (turn : Option Turn) : firstRow patterns ((Arrow.diamondBehindStyled d n m turn).text ++ t) =
      some ((Arrow.diamondBehindStyled d n m turn).row, target) := by
  simp only [Arrow.text, List.append_assoc, List.cons_append, List.nil_append]
  rw [stroke_append, firstRow_dash, ← stroke_append]
  cases d <;> simp [firstRow_cons, patterns, Pattern.readArrow, skipPieces, after?, Diamond.char,
    Arrow.row, h.near]

theorem firstRow_hollowDots (h : Tail t target) (n : ℕ) :
    firstRow patterns ((Arrow.hollowDots n).text ++ t) = some (patterns[15], target) := by
  simp only [Arrow.text, List.cons_append]
  rw [stroke_append, firstRow_hollow_dot, ← stroke_append]
  simp [firstRow_cons, patterns, Pattern.readArrow, skipPieces, after?, h.gap, h.spaced]

theorem firstRow_forth (h : Tail t target) :
    firstRow patterns (Arrow.forth.text ++ t) = some (patterns[18], target) := by
  simp only [Arrow.text, List.cons_append, List.nil_append]
  rw [firstRow_dash]
  simp [firstRow_cons, patterns, Pattern.readArrow, skipPieces, after?, h.spaced]

theorem firstRow_backward (h : Tail t target) :
    firstRow patterns (Arrow.back.text ++ t) = some (patterns[19], target) := by
  simp only [Arrow.text, List.cons_append, List.nil_append]
  rw [firstRow_back]
  simp [firstRow_cons, patterns, Pattern.readArrow, skipPieces, after?, h.gap, h.spaced]

theorem firstRow_line (h : Tail t target) :
    firstRow patterns (Arrow.line.text ++ t) = some (patterns[22], target) := by
  simp only [Arrow.text, List.cons_append, List.nil_append]
  rw [firstRow_dash]
  simp [firstRow_cons, patterns, Pattern.readArrow, skipPieces, after?, h.gap, h.spaced]

theorem firstRow_forthStyled (h : Tail t target) (n : ℕ) (m : Label) (turn : Option Turn) :
    firstRow patterns ((Arrow.forthStyled n m turn).text ++ t) = some (patterns[16], target) := by
  simp only [Arrow.text, List.append_assoc, List.cons_append, List.nil_append]
  rw [stroke_append, firstRow_dash, ← stroke_append]
  simp [firstRow_cons, patterns, Pattern.readArrow, skipPieces, after?, h.near]

theorem firstRow_backStyled (h : Tail t target) (n : ℕ) (m : Label) (turn : Option Turn)
    (dash : Bool) : firstRow patterns ((Arrow.backStyled n m turn dash).text ++ t) =
      some (patterns[17], target) := by
  simp only [Arrow.text, List.cons_append, List.append_assoc]
  rw [stroke_append, firstRow_back, ← stroke_append]
  simp [firstRow_cons, patterns, Pattern.readArrow, skipPieces, after?, h.turned]

theorem firstRow_lineStyled (h : Tail t target) (n : ℕ) (m : Label) (turn : Option Turn)
    (dash : Bool) : firstRow patterns ((Arrow.lineStyled n m turn dash).text ++ t) =
      some (patterns[21], target) := by
  simp only [Arrow.text, List.append_assoc]
  rw [stroke_append, firstRow_dash, ← stroke_append]
  simp [firstRow_cons, patterns, Pattern.readArrow, skipPieces, h.gap, h.turned]

theorem firstRow_depend (h : Tail t target) (n : ℕ) :
    firstRow patterns ((Arrow.depend n).text ++ t) = some (patterns[20], target) := by
  simp only [Arrow.text, List.append_assoc, List.cons_append, List.nil_append]
  rw [stroke_append, firstRow_dot, ← stroke_append]
  simp [firstRow_cons, patterns, Pattern.readArrow, skipPieces, after?, h.spaced]

theorem firstRow_nest (h : Tail t target) :
    firstRow patterns (Arrow.nest.text ++ t) = some (patterns[23], target) := by
  simp only [Arrow.text, List.cons_append, List.nil_append]
  rw [firstRow_plus]
  simp [firstRow_cons, patterns, Pattern.readArrow, skipPieces, after?, h.spaced]

theorem firstRow_text (h : Tail t target) (a : Arrow) :
    firstRow patterns (a.text ++ t) = some (a.row, target) := by
  cases a with
  | inherit n turn => exact firstRow_inherit h n turn
  | inheritStyled n m turn dash => exact firstRow_inheritStyled h n m turn dash
  | implement n => exact firstRow_implement h n
  | implementTurned n turn n' => exact firstRow_implementTurned h n turn n'
  | implementStyled n m => exact firstRow_implementStyled h n m
  | implementStyledDots n m turn n' => exact firstRow_implementStyledDots h n m turn n'
  | diamond d => exact firstRow_diamond h d
  | diamondBehind d => exact firstRow_diamondBehind h d
  | diamondStyled d n m turn dash => exact firstRow_diamondStyled h d n m turn dash
  | diamondBehindStyled d n m turn => exact firstRow_diamondBehindStyled h d n m turn
  | hollowDots n => exact firstRow_hollowDots h n
  | forth => exact firstRow_forth h
  | back => exact firstRow_backward h
  | line => exact firstRow_line h
  | forthStyled n m turn => exact firstRow_forthStyled h n m turn
  | backStyled n m turn dash => exact firstRow_backStyled h n m turn dash
  | lineStyled n m turn dash => exact firstRow_lineStyled h n m turn dash
  | depend n => exact firstRow_depend h n
  | nest => exact firstRow_nest h

end ClassDiagram.Relation
