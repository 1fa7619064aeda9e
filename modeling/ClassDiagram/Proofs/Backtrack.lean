import ClassDiagram.Proofs.Regex
import ClassDiagram.Relation.Table

/-! The patterns of the table as regular expressions. A pattern reads on without going back, so it
may only part from backtracking where a run could have stopped earlier; no row of the table has such
a place, and the first match of backtracking is what the pattern reads. -/

namespace ClassDiagram.Relation

open Text

/-! ### The expressions -/

def Regex.text (cs : List Char) : Regex := cs.foldr (fun c r => (one (.lit c)).seq r) empty

/-- `(\w+)` -/
def Regex.name : Regex := (some .word).group

/-- `(\w+)\s+` or `(\w+)(::\w+)?\s+`, and an expression behind it. -/
def Subject.regex : Subject → Regex → Regex
  | entity, s => Regex.name.seq ((Regex.some .blank).seq s)
  | member, s => Regex.name.seq
      (((Regex.text "::".toList).seq (Regex.some .word)).optional.seq ((Regex.some .blank).seq s))

/-- The last has the dots of a turned arrow, `\.+[udlr]\.+`, before `\.\.+`. -/
def Piece.regex : Piece → Regex
  | text s => .text s.toList
  | run c => .some (.lit c)
  | style => (Regex.one (.lit '[')).seq ((Regex.many .inBrackets).seq (.one (.lit ']')))
  | turn => (Regex.one .turn).optional
  | turnedDots =>
    ((Regex.some (.lit '.')).seq ((Regex.one .turn).seq (.some (.lit '.')))).prefer
      ((Regex.one (.lit '.')).seq (.some (.lit '.')))

/-- The pieces of an arrow, and an expression behind them. -/
def arrowRegex : List Piece → Regex → Regex
  | [], s => s
  | p :: ps, s => p.regex.seq (arrowRegex ps s)

/-- `-?\s*(\w+)` -/
def Regex.dashed : Regex := (one (.lit '-')).optional.seq ((many .blank).seq name)

/-- `\s*(\w+)`, `\s+(\w+)` or `[udlr]?-?\s*(\w+)` -/
def Target.regex : Target → Regex
  | near => (Regex.many .blank).seq .name
  | spaced => (Regex.some .blank).seq .name
  | turned => (Regex.one .turn).optional.seq .dashed

def Pattern.regex (p : Pattern) : Regex := p.subject.regex (arrowRegex p.arrow p.target.regex)

/-! ### Pieces -/

variable {s : Regex} {k : CharClass} {cs : List Char}

/-- Whether the expression behind a piece leaves the piece only one way to match. -/
def Piece.steady (s : Regex) : Piece → Bool
  | text _ | style => true
  | run c => s.avoids (.lit c)
  | turn => s.avoids .turn
  | turnedDots => s.avoids (.lit '.')

def steadyArrow (s : Regex) : List Piece → Bool
  | [] => true
  | p :: ps => p.steady (arrowRegex ps s) && steadyArrow s ps

namespace Regex

theorem ways_text_seq (s : Regex) (t cs : List Char) :
    ((text t).seq s).ways cs = (after? t cs).elim [] s.ways := by
  induction t generalizing cs with
  | nil => rw [after?_nil]; exact ways_empty_seq s cs
  | cons c t ih =>
    change (((one (.lit c)).seq (text t)).seq s).ways cs = _
    rw [ways_seq_assoc]
    cases cs with
    | nil => rfl
    | cons d cs =>
      rw [ways_one_seq, ih]
      by_cases hd : d = c
      · simp [CharClass.has, after?, hd]
      · simp [CharClass.has, after?, hd, Ne.symm hd]

theorem ways_style_seq (s : Regex) (cs : List Char) :
    (Piece.style.regex.seq s).ways cs = (Piece.style.skip cs).elim [] s.ways := by
  have hclose : ((one (.lit ']')).seq s).avoids .inBrackets := rfl
  rw [Piece.regex, ways_seq_assoc, Piece.skip]
  cases cs with
  | nil => rfl
  | cons c cs =>
    rw [ways_one_seq, ways_seq_assoc, ways_many_seq hclose]
    by_cases hc : c = '['
    · subst hc
      have hdrop : cs.dropWhile CharClass.inBrackets.has = cs.dropWhile (· ≠ ']') := rfl
      rw [hdrop, Scan.bracket, if_pos (show CharClass.has (.lit '[') '[' from rfl)]
      cases cs.dropWhile (· ≠ ']') with
      | nil => rfl
      | cons d rest =>
        rw [ways_one_seq]
        by_cases hd : d = ']'
        · subst hd
          rfl
        · simp [CharClass.has, hd]
    · simp [Scan.bracket, CharClass.has, hc]

/-- The text behind dots and a turning letter. -/
def skipToTurn (cs : List Char) : Option (List Char) :=
  (Scan.run (· = '.') cs).bind fun p =>
    match p.2 with
    | [] => none
    | t :: rest => if isTurn t then Option.some rest else none

theorem skipTurnedDots_eq (cs : List Char) :
    skipTurnedDots cs =
      (skipToTurn cs).bind fun rest => (Scan.run (· = '.') rest).map Prod.snd := by
  rw [skipTurnedDots, skipToTurn]
  rcases Scan.run (· = '.') cs with _ | ⟨dots, _ | ⟨t, rest⟩⟩
  · rfl
  · rfl
  · cases ht : isTurn t <;> simp [ht]

theorem ways_toTurn_seq (s : Regex) (cs : List Char) :
    ((some (.lit '.')).seq ((one .turn).seq s)).ways cs = (skipToTurn cs).elim [] s.ways := by
  rw [ways_some_seq rfl, skipToTurn]
  change (Scan.run (· = '.') cs).elim [] _ = _
  rcases Scan.run (· = '.') cs with _ | ⟨dots, _ | ⟨t, rest⟩⟩
  · rfl
  · rfl
  · cases ht : isTurn t <;> simp [ways_one_seq, CharClass.has, ht]

theorem ways_turnedDots_seq (h : s.avoids (.lit '.')) (cs : List Char) :
    (Piece.turnedDots.regex.seq s).ways cs = (Piece.turnedDots.skip cs).elim [] s.ways := by
  have hdots (rest : List Char) :
      ((some (.lit '.')).seq s).ways rest =
        ((Scan.run (· = '.') rest).map Prod.snd).elim [] s.ways := by
    rw [ways_some_seq h, Option.elim_map]
    rfl
  have htwo : (((one (.lit '.')).seq (some (.lit '.'))).seq s).ways cs =
      (skipTwoDots cs).elim [] s.ways := by
    rw [ways_seq_assoc]
    cases cs with
    | nil => rfl
    | cons c cs =>
      rw [ways_one_seq, hdots]
      by_cases hc : c = '.'
      · subst hc
        rfl
      · simp [CharClass.has, skipTwoDots, hc]
  have hturned : (((some (.lit '.')).seq ((one .turn).seq (some (.lit '.')))).seq s).ways cs =
      (skipToTurn cs).elim [] ((some (.lit '.')).seq s).ways := by
    rw [ways_seq_assoc, ways_seq_congr _ (ways_seq_assoc _ _ _), ways_toTurn_seq]
  rw [Piece.regex, ways_prefer_seq, ways_toTurn_seq, hturned, htwo, Piece.skip, skipTurnedDots_eq]
  cases skipToTurn cs with
  | none => simp
  | some rest =>
    simp only [Option.elim_some, ways_some_eq_nil_iff, hdots, Option.bind_some]
    change (if Scan.run (· = '.') rest = none then _ else _) = _
    cases Scan.run (· = '.') rest <;> simp

end Regex

theorem Piece.ways_seq {p : Piece} (h : p.steady s) (cs : List Char) :
    (p.regex.seq s).ways cs = (p.skip cs).elim [] s.ways := by
  cases p with
  | text t => exact Regex.ways_text_seq s t.toList cs
  | run c =>
    rw [Piece.regex, Regex.ways_some_seq h, skip, Option.elim_map]
    rfl
  | style => exact Regex.ways_style_seq s cs
  | turn =>
    rw [Piece.regex, Regex.ways_optional_seq]
    cases cs with
    | nil => rfl
    | cons c cs =>
      rw [Regex.ways_one_seq, skip]
      by_cases hc : isTurn c
      · simp [CharClass.has, hc, Regex.ways_of_avoids h hc]
      · simp [CharClass.has, hc]
  | turnedDots => exact Regex.ways_turnedDots_seq h cs

theorem ways_arrowRegex {ps : List Piece} (h : steadyArrow s ps) (cs : List Char) :
    (arrowRegex ps s).ways cs = (skipPieces ps cs).elim [] s.ways := by
  induction ps generalizing cs with
  | nil => rfl
  | cons p ps ih =>
    obtain ⟨hp, hps⟩ := Bool.and_eq_true_iff.1 h
    rw [arrowRegex, p.ways_seq hp, skipPieces]
    cases p.skip cs with
    | none => rfl
    | some rest => exact ih hps rest

/-! ### Names -/

namespace Regex

theorem ways_name (c : Char) (cs : List Char) :
    name.ways (c :: cs) = if isWordChar c then
      (rests .word cs).map fun rest => ⟨[(c :: cs).take ((c :: cs).length - rest.length)], rest⟩
    else [] := by
  rw [name, some, ways, ways_one_seq, ways]
  change (if isWordChar c then _ else _ : List Way).map _ = _
  split
  · rw [List.map_map]
    rfl
  · rfl

/-- The longest run is captured by the first match of a name. -/
theorem take_name (c : Char) (cs : List Char) :
    (c :: cs).take ((c :: cs).length - (cs.dropWhile isWordChar).length) =
      c :: cs.takeWhile isWordChar :=
  take_front (by rw [List.cons_append, List.takeWhile_append_dropWhile])

theorem head?_ways_name (cs : List Char) :
    (name.ways cs).head? = (Scan.word cs).map fun p => ⟨[p.1], p.2⟩ := by
  cases cs with
  | nil => rfl
  | cons c cs =>
    rw [ways_name, Scan.word, Scan.run_cons]
    split
    · rw [List.head?_map, head?_rests, Option.map_some, Option.map_some, ← take_name]
      rfl
    · rfl

theorem ways_name_seq (h : s.avoids .word) (cs : List Char) :
    (name.seq s).ways cs =
      (Scan.word cs).elim [] fun p => (s.ways p.2).map (Way.andThen ⟨[p.1], p.2⟩) := by
  cases cs with
  | nil => rfl
  | cons c cs =>
    rw [ways, ways_name, Scan.word, Scan.run_cons]
    split
    · rw [List.flatMap_map, flatMap_rests fun d ds hd => by simp [ways_of_avoids h hd],
        Option.elim_some, ← take_name]
      rfl
    · rfl

theorem ways_blanks_name (cs : List Char) :
    ((many .blank).seq name).ways cs = name.ways (trimStart cs) := ways_many_seq rfl cs

/-- What is read is the first match. -/
theorem head?_ways_dashed (cs : List Char) :
    (dashed.ways cs).head? = (readDashed cs).map fun p => ⟨[p.1], p.2⟩ := by
  rw [dashed, ways_optional_seq, ways_blanks_name]
  cases cs with
  | nil => rfl
  | cons c cs =>
    rw [ways_one_seq, ways_blanks_name]
    by_cases hc : c = '-'
    · subst hc
      have htrim : name.ways (trimStart ('-' :: cs)) = [] := rfl
      rw [htrim, List.append_nil]
      exact head?_ways_name _
    · have hread : readDashed (c :: cs) = Scan.word (trimStart (c :: cs)) := by
        simp [readDashed, hc]
      simp [CharClass.has, hc, hread, head?_ways_name]

end Regex

theorem Target.head?_ways (t : Target) (cs : List Char) :
    (t.regex.ways cs).head? = (t.read cs).map fun p => ⟨[p.1], p.2⟩ := by
  cases t with
  | near => rw [Target.regex, Regex.ways_blanks_name, Regex.head?_ways_name, Target.read]
  | spaced =>
    rw [Target.regex, Regex.ways_some_seq rfl, Target.read]
    change ((Scan.someBlanks cs).elim [] _).head? = _
    cases Scan.someBlanks cs with
    | none => rfl
    | some p => exact Regex.head?_ways_name p.2
  | turned =>
    rw [Target.regex, Regex.ways_optional_seq]
    cases cs with
    | nil => rfl
    | cons c cs =>
      rw [Regex.ways_one_seq, List.head?_append, Regex.head?_ways_dashed, Target.read]
      by_cases hc : isTurn c
      · rw [if_pos hc, if_pos (show CharClass.turn.has c from hc), Regex.head?_ways_dashed]
        cases readDashed cs <;> rfl
      · simp [CharClass.has, hc]

/-- A member behind `::` is read where there is one: blanks do not start with a colon. -/
theorem ways_member_seq (s : Regex) (cs : List Char) :
    (((Regex.text "::".toList).seq (Regex.some .word)).optional.seq
      ((Regex.some .blank).seq s)).ways cs = ((Regex.some .blank).seq s).ways (skipMember cs) := by
  have hblanks : ((Regex.some .blank).seq s).avoids .word := rfl
  rw [Regex.ways_optional_seq, Regex.ways_seq_assoc, Regex.ways_text_seq, skipMember]
  cases hcolons : after? "::".toList cs with
  | none => rfl
  | some rest =>
    have hnone : ((Regex.some .blank).seq s).ways cs = [] := by
      rw [eq_of_after? hcolons]
      exact Regex.ways_of_avoids (k := .lit ':') rfl rfl
    rw [Option.elim_some, Regex.ways_some_seq hblanks, Option.bind_some, hnone, List.append_nil]
    change (Scan.word rest).elim [] _ = _
    cases Scan.word rest with
    | none => exact hnone.symm
    | some p => rfl

theorem Subject.ways_regex (b : Subject) (h : s.avoids .blank) (cs : List Char) :
    (b.regex s).ways cs =
      (b.read cs).elim [] fun p => (s.ways p.2).map (Way.andThen ⟨[p.1], p.2⟩) := by
  have hblanks (rest : List Char) : ((Regex.some .blank).seq s).ways rest =
      (Scan.someBlanks rest).elim [] fun p => s.ways p.2 := Regex.ways_some_seq h rest
  cases b with
  | entity =>
    rw [Subject.regex, Regex.ways_name_seq rfl]
    rcases hname : Scan.word cs with _ | ⟨name, rest⟩
    · simp [Subject.read, hname]
    · rw [Option.elim_some, hblanks]
      rcases hrest : Scan.someBlanks rest with _ | ⟨gap, behind⟩
      · simp [Subject.read, hname, hrest]
      · have hread : entity.read cs = some (name, behind) := by simp [Subject.read, hname, hrest]
        rw [hread]
        rfl
  | member =>
    rw [Subject.regex, Regex.ways_name_seq rfl]
    rcases hname : Scan.word cs with _ | ⟨name, rest⟩
    · simp [Subject.read, hname]
    · rw [Option.elim_some, ways_member_seq, hblanks]
      rcases hrest : Scan.someBlanks (skipMember rest) with _ | ⟨gap, behind⟩
      · simp [Subject.read, hname, hrest]
      · have hread : member.read cs = some (name, behind) := by simp [Subject.read, hname, hrest]
        rw [hread]
        rfl

/-! ### Patterns -/

namespace Pattern

variable {p : Pattern} {line : List Char} {r : Relation}

/-- Whether no piece of a pattern could stop earlier than it does. -/
def steady (p : Pattern) : Bool :=
  (arrowRegex p.arrow p.target.regex).avoids .blank && steadyArrow p.target.regex p.arrow

def Fits (p : Pattern) (cs : List Char) : Prop := ∃ w, p.regex.Matches cs w

/-- The match that backtracking comes to first has captured the names of a relation. -/
def Finds (p : Pattern) (cs : List Char) (r : Relation) : Prop :=
  ∃ w, (p.regex.ways cs).head? = some w ∧ w.captures = [r.source.toList, r.target.toList] ∧
    r.kind = p.kind

/-- A pattern reads the first match, and reads nothing where there is none. -/
theorem read?_cases (hp : p.steady) (cs : List Char) :
    p.regex.ways cs = [] ∧ p.read? cs = none ∨
      ∃ a b rest, (p.regex.ways cs).head? = some ⟨[a, b], rest⟩ ∧
        p.read? cs = some ⟨String.ofList a, String.ofList b, p.kind⟩ := by
  obtain ⟨hblank, harrow⟩ := Bool.and_eq_true_iff.1 hp
  rw [Pattern.regex, p.subject.ways_regex hblank]
  rcases hsubject : p.subject.read cs with _ | ⟨a, behind⟩
  · exact .inl ⟨rfl, by simp [read?, hsubject]⟩
  rw [Option.elim_some, ways_arrowRegex harrow]
  cases hskip : skipPieces p.arrow behind with
  | none => exact .inl ⟨rfl, by simp [read?, hsubject, hskip]⟩
  | some front =>
    have htarget := p.target.head?_ways front
    rcases hread : p.target.read front with _ | ⟨b, rest⟩
    · rw [hread, Option.map_none, List.head?_eq_none_iff] at htarget
      exact .inl ⟨by simp [htarget], by simp [read?, hsubject, hskip, hread]⟩
    · rw [hread, Option.map_some] at htarget
      refine .inr ⟨a, b, rest, ?_, by simp [read?, hsubject, hskip, hread]⟩
      simp [htarget, Way.andThen]

theorem read?_eq_none_iff (hp : p.steady) {cs : List Char} : p.read? cs = none ↔ ¬ p.Fits cs := by
  have hways : p.regex.ways cs = [] ↔ ¬ p.Fits cs := by
    simp only [Fits, not_exists, ← Regex.mem_ways_iff, List.eq_nil_iff_forall_not_mem]
  rw [← hways]
  rcases read?_cases hp cs with ⟨hnil, hread⟩ | ⟨a, b, rest, hfirst, hread⟩
  · simp [hnil, hread]
  · have hne : p.regex.ways cs ≠ [] := by
      intro hnil
      simp [hnil] at hfirst
    simp [hne, hread]

theorem read?_eq_some_iff (hp : p.steady) {cs : List Char} :
    p.read? cs = some r ↔ p.Finds cs r := by
  rcases read?_cases hp cs with ⟨hnil, hread⟩ | ⟨a, b, rest, hfirst, hread⟩
  · simp [Finds, hnil, hread]
  · rw [Finds, hfirst, hread]
    constructor
    · intro h
      obtain rfl := Option.some.inj h
      exact ⟨⟨[a, b], rest⟩, rfl, by simp, rfl⟩
    · rintro ⟨w, hw, hcaptures, hkind⟩
      obtain rfl := Option.some.inj hw
      obtain ⟨source, target, kind⟩ := r
      simp only [List.cons.injEq, and_true] at hcaptures
      obtain ⟨rfl, rfl⟩ := hcaptures
      simp only [String.ofList_toList, ← hkind]

theorem read?_nil (p : Pattern) : p.read? [] = none := rfl

end Pattern

theorem steady_of_mem : ∀ p ∈ patterns, p.steady := by decide

/-- The table recognises the language of its expressions: the first row that matches anywhere
decides, at the leftmost place where it matches, and captures what backtracking would. -/
theorem find?_backtracks (line : List Char) :
    (∀ r, find? line = some r ↔ ∃ earlier p later k, patterns = earlier ++ p :: later ∧
      (∀ q ∈ earlier, ∀ j, ¬ q.Fits (line.drop j)) ∧
      (∀ j < k, ¬ p.Fits (line.drop j)) ∧ p.Finds (line.drop k) r) ∧
    (find? line = none ↔ ∀ p ∈ patterns, ∀ j, ¬ p.Fits (line.drop j)) ∧
    ∀ p ∈ patterns, ∀ cs, (p.read? cs = none ↔ ¬ p.Fits cs) ∧
      ∀ r, p.read? cs = some r ↔ p.Finds cs r := by
  have hnone {p : Pattern} (hp : p ∈ patterns) :
      Scan.leftmost p.read? line = none ↔ ∀ j, ¬ p.Fits (line.drop j) := by
    simp only [Scan.leftmost_eq_none_iff p.read?_nil, Pattern.read?_eq_none_iff (steady_of_mem p hp)]
  refine ⟨fun r => ?_, ?_, fun p hp cs => ?_⟩
  · rw [find?, List.findSome?_eq_some_iff]
    constructor
    · rintro ⟨earlier, p, later, hrows, hp, hearlier⟩
      have hmem : p ∈ patterns := by simp [hrows]
      obtain ⟨k, hleft, hk⟩ := (Scan.leftmost_eq_some_iff p.read?_nil).1 hp
      refine ⟨earlier, p, later, k, hrows, fun q hq => ?_, fun j hj => ?_, ?_⟩
      · have hq' : q ∈ patterns := by simp [hrows, hq]
        exact (hnone hq').1 (hearlier q hq)
      · exact (Pattern.read?_eq_none_iff (steady_of_mem p hmem)).1 (hleft j hj)
      · exact (Pattern.read?_eq_some_iff (steady_of_mem p hmem)).1 hk
    · rintro ⟨earlier, p, later, k, hrows, hearlier, hleft, hk⟩
      have hmem : p ∈ patterns := by simp [hrows]
      refine ⟨earlier, p, later, hrows, ?_, fun q hq => ?_⟩
      · refine (Scan.leftmost_eq_some_iff p.read?_nil).2 ⟨k, fun j hj => ?_, ?_⟩
        · exact (Pattern.read?_eq_none_iff (steady_of_mem p hmem)).2 (hleft j hj)
        · exact (Pattern.read?_eq_some_iff (steady_of_mem p hmem)).2 hk
      · have hq' : q ∈ patterns := by simp [hrows, hq]
        exact (hnone hq').2 (hearlier q hq)
  · simp only [find?, List.findSome?_eq_none_iff]
    exact forall₂_congr fun p hp => hnone hp
  · exact ⟨Pattern.read?_eq_none_iff (steady_of_mem p hp),
      fun r => Pattern.read?_eq_some_iff (steady_of_mem p hp)⟩

end ClassDiagram.Relation
