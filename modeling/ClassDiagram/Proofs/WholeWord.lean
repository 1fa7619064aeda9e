import ClassDiagram.Proofs.Line
import ClassDiagram.Proofs.Session

/-! Members are read by the leftmost whole word of their line. The readers of members are tried at
every place, also inside of words; but what a reader finds behind a part of a word it finds behind all
of it, and so the leftmost place where it finds something starts a word. -/

namespace ClassDiagram.Markup

open Text

variable {α : Type} {line cs w t rest raw behind name : List Char} {c : Char}

/-! ### Whole words -/

/-- A maximal run of word characters in a line, with what stands in front of it and behind it. -/
structure WholeWord (line front w rest : List Char) : Prop where
  split : line = front ++ (w ++ rest)
  word : IsWord w
  front : front.getLast?.any isWordChar = false
  rest : rest.head?.any isWordChar = false

/-- Some whole word of a line is followed by something of a sort. -/
def SomeWord (Follows : List Char → α → Prop) (line : List Char) : Prop :=
  ∃ front w rest x, WholeWord line front w rest ∧ Follows rest x

/-- The leftmost whole word of a line that is followed by something of a sort, and that thing. -/
def LeftmostWord (Follows : List Char → α → Prop) (line w : List Char) (x : α) : Prop :=
  ∃ front rest, WholeWord line front w rest ∧ Follows rest x ∧
    ∀ front' w' rest' x', WholeWord line front' w' rest' → Follows rest' x' →
      front.length ≤ front'.length

theorem WholeWord.read {front : List Char} (h : WholeWord line front w rest) :
    Scan.word (line.drop front.length) = some (w, rest) := by
  rw [h.split, List.drop_left, Scan.word_append h.word h.rest]

theorem exists_split_word (t : List Char) : ∃ front w, t = front ++ w ∧
    (∀ c ∈ w, isWordChar c = true) ∧ front.getLast?.any isWordChar = false := by
  refine ⟨t.rdropWhile isWordChar, t.rtakeWhile isWordChar,
    List.rdropWhile_append_rtakeWhile.symm, fun c hc => List.mem_rtakeWhile_imp hc, ?_⟩
  by_cases hne : t.rdropWhile isWordChar = []
  · rw [hne]
    rfl
  · rw [List.getLast?_eq_some_getLast hne, Option.any_some]
    simpa using List.rdropWhile_last_not isWordChar t hne

/-- A word that is read at some place of a line is the end of a whole word. -/
theorem exists_wholeWord {k : ℕ} (h : Scan.word (line.drop k) = some (w, rest)) :
    ∃ front w', WholeWord line front w' rest ∧ front.length ≤ k := by
  obtain ⟨hne, hchars, hdrop, hrest⟩ := Scan.eq_of_run h
  obtain ⟨front, w', htake, hw', hfront⟩ := exists_split_word (line.take k)
  have hsplit : line = front ++ ((w' ++ w) ++ rest) := by
    rw [List.append_assoc, ← hdrop, ← List.append_assoc, ← htake, List.take_append_drop]
  have hword : IsWord (w' ++ w) := by
    refine ⟨by simp [hne], ?_⟩
    intro c hc
    exact (List.mem_append.1 hc).elim (hw' c) (hchars c)
  have hle : front.length ≤ (line.take k).length := by simp [htake]
  exact ⟨front, w' ++ w, ⟨hsplit, hword, hfront, hrest⟩, hle.trans (List.length_take_le k line)⟩

/-! ### Readers that start with a word -/

/-- A word, and what is read behind it. -/
def readWord (follow : List Char → Option α) (cs : List Char) : Option (List Char × α) :=
  (Scan.word cs).bind fun q => (follow q.2).map (q.1, ·)

theorem readWord_eq_some_iff {follow : List Char → Option α} {x : α} :
    readWord follow cs = some (w, x) ↔
      ∃ rest, Scan.word cs = some (w, rest) ∧ follow rest = some x := by
  simp [readWord, Option.bind_eq_some_iff]

variable {follow : List Char → Option α} {Follows : List Char → α → Prop}

theorem leftmost_readWord_isSome_iff (h : ∀ rest x, follow rest = some x ↔ Follows rest x) :
    (Scan.leftmost (readWord follow) line).isSome ↔ SomeWord Follows line := by
  constructor
  · intro hread
    obtain ⟨⟨w, x⟩, hread⟩ := Option.isSome_iff_exists.1 hread
    obtain ⟨k, -, hk⟩ := (Scan.leftmost_eq_some_iff rfl).1 hread
    obtain ⟨rest, hword, hfollow⟩ := readWord_eq_some_iff.1 hk
    obtain ⟨front, w', hwhole, -⟩ := exists_wholeWord hword
    exact ⟨front, w', rest, x, hwhole, (h rest x).1 hfollow⟩
  · rintro ⟨front, w, rest, x, hwhole, hx⟩
    have hread := readWord_eq_some_iff.2 ⟨rest, hwhole.read, (h rest x).2 hx⟩
    by_contra hnone
    rw [Option.not_isSome_iff_eq_none] at hnone
    rw [(Scan.leftmost_eq_none_iff rfl).1 hnone front.length] at hread
    contradiction

/-- The leftmost place where such a reader finds something is the leftmost whole word before it. -/
theorem leftmost_readWord_eq_some_iff (h : ∀ rest x, follow rest = some x ↔ Follows rest x) {x : α} :
    Scan.leftmost (readWord follow) line = some (w, x) ↔ LeftmostWord Follows line w x := by
  constructor
  · intro hread
    obtain ⟨k, hleft, hk⟩ := (Scan.leftmost_eq_some_iff rfl).1 hread
    obtain ⟨rest, hword, hfollow⟩ := readWord_eq_some_iff.1 hk
    -- nothing is read at the front of a whole word that starts before this place
    have hfirst {front' w' rest' : List Char} {x' : α} (hwhole : WholeWord line front' w' rest')
        (hx' : follow rest' = some x') : k ≤ front'.length := by
      by_contra hlt
      have hread' := readWord_eq_some_iff.2 ⟨rest', hwhole.read, hx'⟩
      rw [hleft _ (not_le.1 hlt)] at hread'
      contradiction
    obtain ⟨front, w', hwhole, hle⟩ := exists_wholeWord hword
    obtain rfl : front.length = k := le_antisymm hle (hfirst hwhole hfollow)
    obtain ⟨rfl, -⟩ := Prod.mk.inj (Option.some.inj (hwhole.read.symm.trans hword))
    exact ⟨front, rest, hwhole, (h rest x).1 hfollow,
      fun front' w'' rest' x' hwhole' hx' => hfirst hwhole' ((h rest' x').2 hx')⟩
  · rintro ⟨front, rest, hwhole, hx, hfirst⟩
    refine (Scan.leftmost_eq_some_iff rfl).2 ⟨front.length, fun j hj => ?_,
      readWord_eq_some_iff.2 ⟨rest, hwhole.read, (h rest x).2 hx⟩⟩
    by_contra hread
    obtain ⟨⟨w', x'⟩, hread⟩ := Option.ne_none_iff_exists'.1 hread
    obtain ⟨rest', hword, hfollow⟩ := readWord_eq_some_iff.1 hread
    obtain ⟨front', w'', hwhole', hle⟩ := exists_wholeWord hword
    have hbefore := hfirst front' w'' rest' x' hwhole' ((h rest' x').1 hfollow)
    omega

/-! ### What follows a name -/

/-- Blanks and parentheses with no closing one inside, and what stands behind them. -/
def Parameters (rest behind : List Char) : Prop :=
  ∃ gap inside, (∀ c ∈ gap, isBlank c = true) ∧ ')' ∉ inside ∧
    rest = gap ++ '(' :: (inside ++ ')' :: behind)

/-- Blanks, a colon and a text that is not blank. -/
def TypeText (rest raw : List Char) : Prop :=
  ∃ gap, (∀ c ∈ gap, isBlank c = true) ∧ rest = gap ++ ':' :: raw ∧ ∃ c ∈ raw, isBlank c = false

/-- A line with nothing but a name on it, behind a mark of visibility or none. -/
def BareName (line name : List Char) : Prop :=
  ∃ (mark : Option Char) (gap gap' : List Char), (∀ c ∈ mark, c ∈ marks) ∧
    (∀ c ∈ gap, isBlank c = true) ∧ IsWord name ∧ (∀ c ∈ gap', isBlank c = true) ∧
    line = mark.toList ++ (gap ++ (name ++ gap'))

theorem after?_trimStart_iff (hc : isBlank c = false) :
    after? [c] (trimStart cs) = some rest ↔
      ∃ gap, (∀ d ∈ gap, isBlank d = true) ∧ cs = gap ++ c :: rest := by
  rw [after?_singleton_iff]
  constructor
  · intro h
    refine ⟨cs.takeWhile isBlank, fun d hd => List.mem_takeWhile_imp hd, ?_⟩
    rw [← h, trimStart, List.takeWhile_append_dropWhile]
  · rintro ⟨gap, hgap, rfl⟩
    rw [trimStart_append hgap, trimStart_of_head (by simpa using hc)]

theorem after?_dropWhile_iff : after? [c] (cs.dropWhile (· ≠ c)) = some rest ↔
    ∃ inside, c ∉ inside ∧ cs = inside ++ c :: rest := by
  rw [after?_singleton_iff]
  constructor
  · intro h
    refine ⟨cs.takeWhile (· ≠ c), fun hmem => ?_, ?_⟩
    · simpa using List.mem_takeWhile_imp hmem
    · rw [← h, List.takeWhile_append_dropWhile]
  · rintro ⟨inside, hinside, rfl⟩
    have hall : ∀ d ∈ inside, decide (d ≠ c) = true :=
      fun d hd => decide_eq_true fun hdc => hinside (hdc ▸ hd)
    rw [List.dropWhile_append_of_pos hall]
    simp

def parameters? (rest : List Char) : Option (List Char) :=
  (after? ['('] (trimStart rest)).bind fun inside => after? [')'] (inside.dropWhile (· ≠ ')'))

theorem parameters?_eq_some_iff (rest behind : List Char) :
    parameters? rest = some behind ↔ Parameters rest behind := by
  simp only [parameters?, Option.bind_eq_some_iff, after?_dropWhile_iff,
    after?_trimStart_iff (c := '(') rfl, Parameters]
  constructor
  · rintro ⟨_, ⟨gap, hgap, rfl⟩, inside, hinside, rfl⟩
    exact ⟨gap, inside, hgap, hinside, rfl⟩
  · rintro ⟨gap, inside, hgap, hinside, rfl⟩
    exact ⟨_, ⟨gap, hgap, rfl⟩, inside, hinside, rfl⟩

def typeText? (rest : List Char) : Option (List Char) :=
  (after? [':'] (trimStart rest)).filter fun raw => trimStart raw ≠ []

theorem typeText?_eq_some_iff (rest raw : List Char) :
    typeText? rest = some raw ↔ TypeText rest raw := by
  simp only [typeText?, Option.filter_eq_some_iff, after?_trimStart_iff (c := ':') rfl,
    decide_eq_true_iff, trimStart_ne_nil_iff, TypeText]
  constructor
  · rintro ⟨⟨gap, hgap, rfl⟩, hraw⟩
    exact ⟨gap, hgap, rfl, hraw⟩
  · rintro ⟨gap, hgap, rfl, hraw⟩
    exact ⟨⟨gap, hgap, rfl⟩, hraw⟩

/-! ### The readers of members -/

theorem readMethod_eq (cs : List Char) : readMethod cs =
    (readWord parameters? cs).map fun q => ⟨String.ofList q.1, returnType q.2⟩ := by
  rcases hword : Scan.word cs with _ | ⟨name, rest⟩
  · simp [readMethod, readWord, hword]
  cases hopen : after? ['('] (trimStart rest) with
  | none => simp [readMethod, readWord, parameters?, hword, hopen]
  | some inside =>
    simp only [readMethod, readWord, parameters?, hword, hopen, Option.bind_eq_bind,
      Option.bind_some]
    cases after? [')'] (inside.dropWhile (· ≠ ')')) <;> rfl

theorem readTyped_eq (cs : List Char) :
    readTyped cs = (readWord typeText? cs).map fun q => (q.1, trimStart q.2) := by
  rcases hword : Scan.word cs with _ | ⟨name, rest⟩
  · simp [readTyped, readWord, hword]
  cases hcolon : after? [':'] (trimStart rest) with
  | none => simp [readTyped, readWord, typeText?, afterColon?, hword, hcolon]
  | some raw =>
    by_cases hraw : trimStart raw = [] <;>
      simp [readTyped, readWord, typeText?, afterColon?, Option.filter, hword, hcolon, hraw]

theorem returnType_eq (cs : List Char) :
    returnType cs = ((typeText? cs).map fun raw => String.ofList (trim raw)).getD voidType := by
  cases hcolon : after? [':'] (trimStart cs) with
  | none => simp [returnType, afterColon?, typeText?, hcolon]
  | some raw =>
    simp only [returnType, afterColon?, typeText?, hcolon, Option.map_some, trim_trimStart,
      trim_eq_nil_iff]
    by_cases hraw : trimStart raw = [] <;> simp [Option.filter, hraw]

/-- Blanks in front of a type do not matter. -/
theorem readType_trimStart (raw : List Char) : readType (trimStart raw) = readType raw := by
  have hblank : ∀ c ∈ raw.takeWhile isBlank, isBlank c = true := fun c hc => List.mem_takeWhile_imp hc
  have hslash : ∀ c ∈ raw.takeWhile isBlank, c ∉ "//".toList := by
    intro c hc hmem
    obtain rfl : c = '/' := by simpa using hmem
    exact absurd (hblank _ hc) (by decide)
  have hraw : raw = raw.takeWhile isBlank ++ trimStart raw := List.takeWhile_append_dropWhile.symm
  have htrim : trim (before "//".toList raw) = trim (before "//".toList (trimStart raw)) := by
    conv_lhs => rw [hraw]
    rw [before_append_left (by decide) hslash, trim_append_left hblank]
  rw [readType, readType, htrim]

def readAlone (cs : List Char) : Option (List Char) :=
  (Scan.word (trimStart cs)).bind fun q => if trimStart q.2 = [] then some q.1 else none

theorem readAlone_eq_some_iff : readAlone cs = some name ↔
    ∃ gap gap', (∀ c ∈ gap, isBlank c = true) ∧ IsWord name ∧ (∀ c ∈ gap', isBlank c = true) ∧
      cs = gap ++ (name ++ gap') := by
  constructor
  · intro h
    obtain ⟨⟨w, rest⟩, hword, h⟩ := Option.bind_eq_some_iff.1 h
    split at h
    · next hrest =>
      obtain rfl := Option.some.inj h
      obtain ⟨hw, hcs⟩ := Scan.eq_of_word hword
      refine ⟨cs.takeWhile isBlank, rest, fun c hc => List.mem_takeWhile_imp hc, hw,
        trimStart_eq_nil_iff.1 hrest, ?_⟩
      rw [← hcs, trimStart, List.takeWhile_append_dropWhile]
    · contradiction
  · rintro ⟨gap, gap', hgap, hname, hgap', rfl⟩
    have hstop : gap'.head?.any isWordChar = false := by
      rw [Option.any_eq_false]
      intro c hc
      exact isWordChar_of_isBlank (hgap' c (List.mem_of_mem_head? hc))
    have hrest : trimStart gap' = [] := trimStart_eq_nil_iff.2 hgap'
    rw [readAlone, trimStart_append hgap, trimStart_of_head (hname.head_not_blank gap'),
      Scan.word_append hname hstop, Option.bind_some, if_pos hrest]

theorem readBare_cons (c : Char) (cs : List Char) :
    readBare (c :: cs) = readAlone (if c ∈ marks then cs else c :: cs) := rfl

theorem readBare_eq_some_iff : readBare cs = some name ↔ BareName cs name := by
  cases cs with
  | nil =>
    refine iff_of_false (Option.some_ne_none name).symm ?_
    rintro ⟨mark, gap, gap', -, -, hname, -, hnil⟩
    exact hname.ne_nil (by simp_all)
  | cons c cs =>
    rw [readBare_cons, readAlone_eq_some_iff]
    constructor
    · rintro ⟨gap, gap', hgap, hname, hgap', hcs⟩
      split at hcs
      · next hc => exact ⟨some c, gap, gap', by simpa using hc, hgap, hname, hgap', by simp [hcs]⟩
      · exact ⟨none, gap, gap', by simp, hgap, hname, hgap', by simp [hcs]⟩
    · rintro ⟨mark, gap, gap', hmark, hgap, hname, hgap', hcs⟩
      refine ⟨gap, gap', hgap, hname, hgap', ?_⟩
      cases mark with
      | none =>
        rw [Option.toList_none, List.nil_append] at hcs
        have hplain : isBlank c = true ∨ isWordChar c = true := by
          have hmem : c ∈ gap ++ (name ++ gap') := hcs ▸ List.mem_cons_self
          rcases List.mem_append.1 hmem with hc | hc
          · exact .inl (hgap c hc)
          rcases List.mem_append.1 hc with hc | hc
          · exact .inr (hname.chars c hc)
          · exact .inl (hgap' c hc)
        have hc : c ∉ marks := fun hc => by simp [mark_plain hc] at hplain
        rw [if_neg hc, hcs]
      | some d =>
        obtain ⟨rfl, rfl⟩ := List.cons.inj hcs
        rw [if_pos (hmark c rfl)]
        rfl

/-! ### Lines of a class body -/

/-- The attribute and the method that are recorded for a line of a class body. -/
structure Records (line : List Char) (a? : Option Attribute) (f? : Option Method) : Prop where
  /-- Only a line with parentheses of both kinds holds a method. -/
  method_isSome : f?.isSome ↔ ('(' ∈ line ∧ ')' ∈ line) ∧ SomeWord Parameters line
  method : ∀ f ∈ f?, ∃ name behind, LeftmostWord Parameters line name behind ∧
    f.name = String.ofList name ∧
    (∀ raw, TypeText behind raw → f.returnType = String.ofList (trim raw)) ∧
    ((∀ raw, ¬ TypeText behind raw) → f.returnType = "void")
  /-- Every other line holds an attribute, with a colon or without one. -/
  attribute_isSome : a?.isSome ↔ ¬ ('(' ∈ line ∧ ')' ∈ line) ∧
    if ':' ∈ line then SomeWord TypeText line else ∃ name, BareName line name
  typed : ':' ∈ line → ∀ a ∈ a?, ∃ name raw, LeftmostWord TypeText line name raw ∧
    a.name = String.ofList name ∧ (a.type, a.defaultValue) = readType raw
  bare : ':' ∉ line → ∀ a ∈ a?, ∃ name, BareName line name ∧ a = ⟨String.ofList name, "String", none⟩

theorem leftmost_readMethod (line : List Char) : Scan.leftmost readMethod line =
    (Scan.leftmost (readWord parameters?) line).map fun q => ⟨String.ofList q.1, returnType q.2⟩ := by
  rw [funext readMethod_eq, Scan.leftmost_map]

theorem leftmost_readTyped (line : List Char) : Scan.leftmost readTyped line =
    (Scan.leftmost (readWord typeText?) line).map fun q => (q.1, trimStart q.2) := by
  rw [funext readTyped_eq, Scan.leftmost_map]

theorem returnType_of_typeText (h : TypeText cs raw) : returnType cs = String.ofList (trim raw) := by
  rw [returnType_eq, (typeText?_eq_some_iff cs raw).2 h]
  rfl

theorem returnType_of_not_typeText (h : ∀ raw, ¬ TypeText cs raw) : returnType cs = "void" := by
  have hnone : typeText? cs = none :=
    Option.eq_none_iff_forall_ne_some.2 fun raw hraw => h raw ((typeText?_eq_some_iff cs raw).1 hraw)
  rw [returnType_eq, hnone]
  rfl

theorem records_method (hparens : hasParentheses line = true) :
    Records line none (Scan.leftmost readMethod line) := by
  have hboth : '(' ∈ line ∧ ')' ∈ line := by simpa [hasParentheses] using hparens
  refine ⟨?_, ?_, by simp [hboth], by simp, by simp⟩
  · rw [leftmost_readMethod, Option.isSome_map, leftmost_readWord_isSome_iff parameters?_eq_some_iff,
      and_iff_right hboth]
  · intro f hf
    rw [leftmost_readMethod] at hf
    obtain ⟨⟨name, behind⟩, hread, rfl⟩ := Option.map_eq_some_iff.1 hf
    exact ⟨name, behind, (leftmost_readWord_eq_some_iff parameters?_eq_some_iff).1 hread, rfl,
      fun raw => returnType_of_typeText, returnType_of_not_typeText⟩

theorem records_attribute (hparens : hasParentheses line = false) :
    Records line (readAttribute line) none := by
  have hboth : ¬ ('(' ∈ line ∧ ')' ∈ line) := by simpa [hasParentheses] using hparens
  by_cases hcolon : ':' ∈ line
  · have hread : readAttribute line = (Scan.leftmost (readWord typeText?) line).map fun q =>
        ⟨String.ofList q.1, (readType q.2).1, (readType q.2).2⟩ := by
      rw [readAttribute, if_pos hcolon, leftmost_readTyped, Option.map_map]
      refine congrArg (Option.map · _) (funext fun q => ?_)
      simp [readType_trimStart]
    refine ⟨by simp [hboth], by simp, ?_, fun _ a ha => ?_, fun h => absurd hcolon h⟩
    · rw [hread, Option.isSome_map, leftmost_readWord_isSome_iff typeText?_eq_some_iff,
        and_iff_right hboth, if_pos hcolon]
    · rw [hread] at ha
      obtain ⟨⟨name, raw⟩, hleft, rfl⟩ := Option.map_eq_some_iff.1 ha
      exact ⟨name, raw, (leftmost_readWord_eq_some_iff typeText?_eq_some_iff).1 hleft, rfl, rfl⟩
  · have hread : readAttribute line =
        (readBare line).map fun name => ⟨String.ofList name, "String", none⟩ := if_neg hcolon
    refine ⟨by simp [hboth], by simp, ?_, fun h => absurd h hcolon, fun _ a ha => ?_⟩
    · rw [hread, Option.isSome_map, and_iff_right hboth, if_neg hcolon, Option.isSome_iff_exists]
      exact exists_congr fun name => readBare_eq_some_iff
    · rw [hread] at ha
      obtain ⟨name, hbare, rfl⟩ := Option.map_eq_some_iff.1 ha
      exact ⟨name, readBare_eq_some_iff.1 hbare, rfl⟩

namespace Session

/--
A line of a class body that is not a separator is read by its leftmost whole word: with parentheses
of both kinds by the one in front of parameters, with a colon by the one in front of a type, and
otherwise only if it stands alone.
-/
theorem readBody_records (s : Session) (i : ℕ) (line : List Char) (hne : content line ≠ [])
    (hseparator : isSeparator (content line) = false) :
    (∀ raw, s.mode = .body ⟨.classes, i⟩ → IsBodyText (trim raw) → trim raw = line →
      s.step raw = s.readBody ⟨.classes, i⟩ line) ∧
    ∃ a? f?, Records (content line) a? f? ∧
      (s.readBody ⟨.classes, i⟩ line).model = { s.model with
        classes := s.model.classes.modify i fun c =>
          { c with attributes := c.attributes ++ a?.toList, methods := c.methods ++ f?.toList } } := by
  refine ⟨?_, ?_⟩
  · rintro raw hmode htext rfl
    exact step_bodyText hmode htext
  have hmodel : (s.readBody ⟨.classes, i⟩ line).model =
      addMember s.model ⟨.classes, i⟩ (content line) := by
    rw [readBody_eq]
    simp [hne, hseparator]
  have hnothing : s.model = { s.model with
      classes := s.model.classes.modify i fun c =>
        { c with attributes := c.attributes ++ [], methods := c.methods ++ [] } } := by
    have hid (c : Class) : ({ c with
        attributes := c.attributes ++ [], methods := c.methods ++ [] } : Class) = id c := by simp
    rw [funext hid, List.modify_id]
  rw [hmodel, addMember]
  cases hparens : hasParentheses (content line) with
  | true =>
    refine ⟨none, _, records_method hparens, ?_⟩
    cases Scan.leftmost readMethod (content line) with
    | none => exact hnothing
    | some f => simp [Model.addMethod]
  | false =>
    refine ⟨_, none, records_attribute hparens, ?_⟩
    cases readAttribute (content line) with
    | none => exact hnothing
    | some a => simp [Model.addAttribute]

theorem readBody_records_method : ∃ a? f?,
    Records "void esegui (a : x) : Esito".toList a? f? ∧ a? = none ∧
      f? = some ⟨"esegui", "Esito"⟩ := by
  obtain ⟨hstep, a?, f?, hrecords, hmodel⟩ :=
    readBody_records (start.run ["class A \x7b".toList]) 0 "void esegui (a : x) : Esito".toList
      (by decide) (by decide)
  have hline := hstep "void esegui (a : x) : Esito".toList (by decide)
    ⟨⟨by decide, rfl, rfl, rfl⟩, rfl, rfl, rfl, by decide⟩ (by decide)
  have hclasses : [Class.mk "A" "A" none a?.toList f?.toList] =
      [⟨"A", "A", none, [], [⟨"esegui", "Esito"⟩]⟩] := by
    have hread : ((start.run ["class A \x7b".toList]).step
        "void esegui (a : x) : Esito".toList).model.classes =
        [⟨"A", "A", none, [], [⟨"esegui", "Esito"⟩]⟩] := by decide
    rw [hline, hmodel] at hread
    exact hread
  refine ⟨a?, f?, hrecords, ?_, ?_⟩
  · cases a? <;> simp_all
  · cases f? <;> simp_all

end Session

end ClassDiagram.Markup
