import ClassDiagram.Json.Number
import ClassDiagram.Json.Printer
import ClassDiagram.Json.Reader
import ClassDiagram.Proofs.Text
/-!
Values in JSON text. A value without numbers is read back from its text, whatever white space the
layout puts between the tokens; both layouts that are written are cases of this.
-/

namespace ClassDiagram.Json

open Text

variable {cs rest : List Char} {c : Char} {fuel n : Nat} {v : Json}

/-! ### String literals -/

theorem hexUnit?_control :
    ∀ n < 0x20, hexUnit? '0' '0' (hexDigit (n / 16)) (hexDigit (n % 16)) = some n := by
  decide

theorem readUnits_short {letter : Char} (h : escaped? letter = some c) (cs : List Char) :
    readUnits ('\\' :: letter :: cs) = (readUnits cs).map fun p => (c.toNat :: p.1, p.2) := by
  have hu : letter ≠ 'u' := by
    rintro rfl
    contradiction
  rw [readUnits]
  · rw [h]
    cases readUnits cs <;> rfl
  · exact fun _ _ _ _ _ hletter => absurd hletter hu

theorem readUnits_control (h : c.toNat < 0x20) (cs : List Char) :
    readUnits ('\\' :: 'u' :: '0' :: '0' :: hexDigit (c.toNat / 16) :: hexDigit (c.toNat % 16) ::
      cs) = (readUnits cs).map fun p => (c.toNat :: p.1, p.2) := by
  rw [readUnits, hexUnit?_control _ h]
  cases readUnits cs <;> rfl

theorem readUnits_plain (hq : c ≠ '"') (hb : c ≠ '\\') (h : 0x20 ≤ c.toNat) (cs : List Char) :
    readUnits (c :: cs) = (readUnits cs).map fun p => (c.toNat :: p.1, p.2) := by
  rw [readUnits]
  · have hnot : ¬ c.toNat < 0x20 := by omega
    simp only [hnot, hb]
    cases readUnits cs <;> rfl
  all_goals simp_all

/-- The escape of a character is read as one unit. -/
theorem readUnits_escape (c : Char) (cs : List Char) :
    readUnits (escape c ++ cs) = (readUnits cs).map fun p => (c.toNat :: p.1, p.2) := by
  unfold escape
  split_ifs with hq hb hback hfeed hline hreturn htab hcontrol
  · subst hq; exact readUnits_short rfl cs
  · subst hb; exact readUnits_short rfl cs
  · subst hback; exact readUnits_short rfl cs
  · subst hfeed; exact readUnits_short rfl cs
  · subst hline; exact readUnits_short rfl cs
  · subst hreturn; exact readUnits_short rfl cs
  · subst htab; exact readUnits_short rfl cs
  · exact readUnits_control hcontrol cs
  · exact readUnits_plain hq hb (Nat.le_of_not_lt hcontrol) cs

theorem readUnits_literal (s rest : List Char) :
    readUnits (s.flatMap escape ++ '"' :: rest) = some (s.map Char.toNat, rest) := by
  induction s with
  | nil => rfl
  | cons c s ih =>
    rw [List.flatMap_cons, List.append_assoc, readUnits_escape, ih]
    rfl

/-- A character is never one half of a surrogate pair. -/
theorem not_isHalf (c : Char) : isHighHalf c.toNat = false ∧ isLowHalf c.toNat = false := by
  have hvalid := c.valid
  simp only [isHighHalf, isLowHalf, Bool.and_eq_false_iff, decide_eq_false_iff_not]
  simp only [UInt32.isValidChar, Nat.isValidChar] at hvalid
  have hc : c.toNat = c.val.toNat := rfl
  omega

theorem joinUnits_map (s : List Char) : joinUnits (s.map Char.toNat) = some s := by
  induction s with
  | nil => rfl
  | cons c s ih =>
    obtain ⟨hhigh, hlow⟩ := not_isHalf c
    cases s with
    | nil => simp [joinUnits, hlow, hhigh]
    | cons d s =>
      rw [List.map_cons, List.map_cons, joinUnits, ← List.map_cons, ih, hhigh, hlow,
        if_neg Bool.false_ne_true, if_neg Bool.false_ne_true, Option.map_some, Char.ofNat_toNat]

theorem readLiteral_literal (s : String) (rest : List Char) :
    readLiteral (s.toList.flatMap escape ++ '"' :: rest) = some (some s, rest) := by
  simp [readLiteral, readUnits_literal, joinUnits_map]

/-! ### White space -/

/-- Whether there is nothing but white space. -/
def Space (cs : List Char) : Prop := ∀ c ∈ cs, isSpace c = true

theorem space_nil : Space [] := fun _ hc => absurd hc List.not_mem_nil

theorem skipSpace_append {b : List Char} (hb : Space b) (cs : List Char) :
    skipSpace (b ++ cs) = skipSpace cs :=
  List.dropWhile_append_of_pos hb

theorem skipSpace_cons (h : isSpace c = false) (cs : List Char) :
    skipSpace (c :: cs) = c :: cs := by
  simp [skipSpace, h]

theorem readValue_append {b : List Char} (hb : Space b) (fuel : Nat) (cs : List Char) :
    readValue fuel (b ++ cs) = readValue fuel cs := by
  cases fuel with
  | zero => rfl
  | succ n => rw [readValue, readValue, skipSpace_append hb]

theorem readItems_append {b : List Char} (hb : Space b) (fuel : Nat) (cs : List Char) :
    readItems fuel (b ++ cs) = readItems fuel cs := by
  cases fuel with
  | zero => rfl
  | succ n => rw [readItems, readItems, readValue_append hb]

theorem readMembers_append {b : List Char} (hb : Space b) (fuel : Nat) (cs : List Char) :
    readMembers fuel (b ++ cs) = readMembers fuel cs := by
  cases fuel with
  | zero => rfl
  | succ n => rw [readMembers, readMembers, readKey, readKey, skipSpace_append hb]

theorem exists_space_append (cs : List Char) : ∃ b, Space b ∧ b ++ skipSpace cs = cs :=
  ⟨cs.takeWhile isSpace, fun _ hc => List.mem_takeWhile_imp hc, List.takeWhile_append_dropWhile⟩

theorem readItems_skipSpace (fuel : Nat) (cs : List Char) :
    readItems fuel (skipSpace cs) = readItems fuel cs := by
  obtain ⟨b, hb, heq⟩ := exists_space_append cs
  rw [← readItems_append hb, heq]

theorem readMembers_skipSpace (fuel : Nat) (cs : List Char) :
    readMembers fuel (skipSpace cs) = readMembers fuel cs := by
  obtain ⟨b, hb, heq⟩ := exists_space_append cs
  rw [← readMembers_append hb, heq]

/-! ### What is read from each form -/

theorem readValue_quote (fuel : Nat) (cs : List Char) :
    readValue (fuel + 1) ('"' :: cs) =
      (readLiteral cs).map fun (s, rest) => (string s, rest) := by
  have hskip : skipSpace ('"' :: cs) = '"' :: cs := skipSpace_cons (by decide) cs
  simp [readValue, hskip, readScalar]

theorem literal_append (s : String) (cs : List Char) :
    literal (some s) ++ cs = '"' :: (s.toList.flatMap escape ++ '"' :: cs) := by
  -- by `change`, since the equations of `literal` evaluate the text of its other case
  change '"' :: s.toList.flatMap escape ++ ['"'] ++ cs = _
  simp only [List.cons_append, List.append_assoc, List.nil_append]

theorem readValue_text (s : String) (fuel : Nat) (rest : List Char) :
    readValue (fuel + 1) (literal (some s) ++ rest) = some (ofText s, rest) := by
  rw [literal_append, readValue_quote, readLiteral_literal, Option.map_some, ofText]

theorem readValue_bracket (fuel : Nat) (cs : List Char) :
    readValue (fuel + 1) ('[' :: cs) =
      match skipSpace cs with
      | ']' :: cs => some (array [], cs)
      | cs => (readItems fuel cs).map fun (items, rest) => (array items, rest) := by
  rw [readValue]
  rfl

/-- No value starts with the bracket that closes an empty array. -/
theorem readValue_array {items : List Json} (h : readItems fuel cs = some (items, rest)) :
    readValue (fuel + 1) ('[' :: cs) = some (array items, rest) := by
  rw [← readItems_skipSpace] at h
  rw [readValue_bracket]
  split
  · next hclose =>
    rw [hclose] at h
    cases fuel with
    | zero => cases h
    | succ n => cases n <;> cases h
  · rw [h]
    rfl

theorem readValue_brace (fuel : Nat) (cs : List Char) :
    readValue (fuel + 1) ('\x7b' :: cs) =
      match skipSpace cs with
      | '\x7d' :: cs => some (object [], cs)
      | cs => (readMembers fuel cs).map fun (members, rest) => (object members, rest) := by
  rw [readValue]
  rfl

/-- No key starts with the brace that closes an empty object. -/
theorem readValue_object {members : List (Literal × Json)}
    (h : readMembers fuel cs = some (members, rest)) :
    readValue (fuel + 1) ('\x7b' :: cs) = some (object members, rest) := by
  rw [← readMembers_skipSpace] at h
  rw [readValue_brace]
  split
  · next hclose =>
    rw [hclose] at h
    cases fuel <;> cases h
  · rw [h]
    rfl

theorem readItems_last {b : List Char} (hb : Space b)
    (h : readValue fuel cs = some (v, b ++ ']' :: rest)) :
    readItems (fuel + 1) cs = some ([v], rest) := by
  have hskip : skipSpace (b ++ ']' :: rest) = ']' :: rest := skipSpace_append hb _
  simp [readItems, h, hskip]

theorem readItems_cons {vs : List Json} {ds : List Char}
    (h : readValue fuel cs = some (v, ',' :: ds)) (hds : readItems fuel ds = some (vs, rest)) :
    readItems (fuel + 1) cs = some (v :: vs, rest) := by
  have hskip : skipSpace (',' :: ds) = ',' :: ds := rfl
  simp [readItems, h, hskip, hds]

theorem readKey_literal {b : List Char} (hb : Space b) (key : String) (cs : List Char) :
    readKey (b ++ (literal (some key) ++ ':' :: cs)) = some (some key, cs) := by
  have hquote (ds : List Char) : after? ['"'] (skipSpace ('"' :: ds)) = some ds := by
    rw [skipSpace_cons (by decide)]
    exact after?_append ['"'] ds
  have hcolon : after? [':'] (skipSpace (':' :: cs)) = some cs := by
    rw [skipSpace_cons (by decide)]
    exact after?_append [':'] cs
  simp [readKey, skipSpace_append hb, literal_append, hquote, readLiteral_literal, hcolon]

theorem readMembers_last {b ds : List Char} {key : String} (hb : Space b)
    (hkey : readKey cs = some (some key, ds))
    (h : readValue fuel ds = some (v, b ++ '\x7d' :: rest)) :
    readMembers (fuel + 1) cs = some ([(some key, v)], rest) := by
  have hskip : skipSpace (b ++ '\x7d' :: rest) = '\x7d' :: rest := skipSpace_append hb _
  simp [readMembers, hkey, h, hskip]

theorem readMembers_cons {ms : List (Literal × Json)} {ds es : List Char} {key : String}
    (hkey : readKey cs = some (some key, ds)) (h : readValue fuel ds = some (v, ',' :: es))
    (hes : readMembers fuel es = some (ms, rest)) :
    readMembers (fuel + 1) cs = some ((some key, v) :: ms, rest) := by
  have hskip : skipSpace (',' :: es) = ',' :: es := rfl
  simp [readMembers, hkey, h, hskip, hes]

/-! ### Layouts -/

/-- The white space that a layout puts between the tokens of a text. -/
structure Spacing where
  /-- In front of an element that stands so deep, and of the bracket behind the last one. -/
  lead : Nat → List Char
  /-- Behind a colon. -/
  gap : List Char
  lead_space : ∀ i, Space (lead i)
  gap_space : Space gap

namespace Spacing

/-- One line without blanks. -/
def dense : Spacing := ⟨fun _ => [], [], fun _ => space_nil, space_nil⟩

theorem space_newLine (i : Nat) : Space (newLine i) := by
  intro c hc
  obtain rfl | hc := List.mem_cons.1 hc
  · rfl
  · rw [List.eq_of_mem_replicate hc]
    rfl

/-- A line for each element. -/
def broad : Spacing where
  lead := newLine
  gap := [' ']
  lead_space := space_newLine
  gap_space := fun c hc => by rw [List.mem_singleton.1 hc]; rfl

end Spacing

mutual

/-- The text of a value in a layout. -/
def spaced (l : Spacing) (i : Nat) : Json → List Char
  | null => "null".toList
  | bool true => "true".toList
  | bool false => "false".toList
  | number d => d.text
  | string s => literal s
  | array [] => ['[', ']']
  | array (v :: vs) => '[' :: spacedItems l (i + 1) (v :: vs) ++ l.lead i ++ [']']
  | object [] => ['\x7b', '\x7d']
  | object (m :: ms) => '\x7b' :: spacedMembers l (i + 1) (m :: ms) ++ l.lead i ++ ['\x7d']

def spacedItems (l : Spacing) (i : Nat) : List Json → List Char
  | [] => []
  | [v] => l.lead i ++ v.spaced l i
  | v :: vs => l.lead i ++ v.spaced l i ++ ',' :: spacedItems l i vs

def spacedMembers (l : Spacing) (i : Nat) : List (Literal × Json) → List Char
  | [] => []
  | [(key, v)] => l.lead i ++ literal key ++ ':' :: l.gap ++ v.spaced l i
  | (key, v) :: ms =>
    l.lead i ++ literal key ++ ':' :: l.gap ++ v.spaced l i ++ ',' :: spacedMembers l i ms

end

mutual

theorem spaced_dense (i : Nat) : ∀ v : Json, v.spaced .dense i = v.compact
  | null | bool true | bool false | number _ | string _ => rfl
  | array [] | object [] => rfl
  | array (v :: vs) => by
    change '[' :: spacedItems .dense (i + 1) (v :: vs) ++ [] ++ [']'] = _
    rw [spacedItems_dense (i + 1) (v :: vs), List.append_nil]
    rfl
  | object (m :: ms) => by
    change '\x7b' :: spacedMembers .dense (i + 1) (m :: ms) ++ [] ++ ['\x7d'] = _
    rw [spacedMembers_dense (i + 1) (m :: ms), List.append_nil]
    rfl

theorem spacedItems_dense (i : Nat) : ∀ vs : List Json, spacedItems .dense i vs = compactItems vs
  | [] => rfl
  | [v] => spaced_dense i v
  | v :: w :: vs => by
    change v.spaced .dense i ++ ',' :: spacedItems .dense i (w :: vs) = _
    rw [spaced_dense i v, spacedItems_dense i (w :: vs)]
    rfl

theorem spacedMembers_dense (i : Nat) :
    ∀ ms : List (Literal × Json), spacedMembers .dense i ms = compactMembers ms
  | [] => rfl
  | [(key, v)] => by
    change literal key ++ [':'] ++ v.spaced .dense i = _
    rw [spaced_dense i v, List.append_assoc]
    rfl
  | (key, v) :: m :: ms => by
    change literal key ++ [':'] ++ v.spaced .dense i ++ ',' :: spacedMembers .dense i (m :: ms) = _
    rw [spaced_dense i v, spacedMembers_dense i (m :: ms), List.append_assoc (literal key)]
    rfl

end

mutual

theorem spaced_broad (i : Nat) : ∀ v : Json, v.spaced .broad i = v.indented i
  | null | bool true | bool false | number _ | string _ => rfl
  | array [] | object [] => rfl
  | array (v :: vs) => by
    change '[' :: spacedItems .broad (i + 1) (v :: vs) ++ newLine i ++ [']'] = _
    rw [spacedItems_broad (i + 1) (v :: vs)]
    rfl
  | object (m :: ms) => by
    change '\x7b' :: spacedMembers .broad (i + 1) (m :: ms) ++ newLine i ++ ['\x7d'] = _
    rw [spacedMembers_broad (i + 1) (m :: ms)]
    rfl

theorem spacedItems_broad (i : Nat) :
    ∀ vs : List Json, spacedItems .broad i vs = indentedItems i vs
  | [] => rfl
  | [v] => by
    change newLine i ++ v.spaced .broad i = _
    rw [spaced_broad i v]
    rfl
  | v :: w :: vs => by
    change newLine i ++ v.spaced .broad i ++ ',' :: spacedItems .broad i (w :: vs) = _
    rw [spaced_broad i v, spacedItems_broad i (w :: vs)]
    rfl

theorem spacedMembers_broad (i : Nat) :
    ∀ ms : List (Literal × Json), spacedMembers .broad i ms = indentedMembers i ms
  | [] => rfl
  | [(key, v)] => by
    change newLine i ++ literal key ++ [':', ' '] ++ v.spaced .broad i = _
    rw [spaced_broad i v, List.append_assoc (newLine i ++ literal key)]
    rfl
  | (key, v) :: m :: ms => by
    change newLine i ++ literal key ++ [':', ' '] ++ v.spaced .broad i ++
      ',' :: spacedMembers .broad i (m :: ms) = _
    rw [spaced_broad i v, spacedMembers_broad i (m :: ms),
      List.append_assoc (newLine i ++ literal key)]
    rfl

end

/-! ### Values without numbers -/

/--
A value of arrays and objects that lie at most `n` deep inside each other, with no number in it and
a text for every string literal.
-/
inductive Textual : Nat → Json → Prop
  | null {n : Nat} : Textual n null
  | bool {n : Nat} (b : Bool) : Textual n (bool b)
  | text {n : Nat} (s : String) : Textual n (ofText s)
  | array {n : Nat} {items : List Json} (h : ∀ v ∈ items, Textual n v) :
    Textual (n + 1) (array items)
  | object {n : Nat} {members : List (Literal × Json)} (hkeys : ∀ m ∈ members, m.1.isSome)
    (h : ∀ m ∈ members, Textual n m.2) : Textual (n + 1) (object members)

/--
Whether the text of a value in a layout is read as the value. Twice its length is fuel enough: to
its first element an array or object takes two units, and its brackets are two characters.
-/
def ReadsBack (l : Spacing) (v : Json) : Prop :=
  ∀ (i : Nat) (rest : List Char) (fuel : Nat), 2 * (v.spaced l i).length < fuel →
    readValue fuel (v.spaced l i ++ rest) = some (v, rest)

variable {l : Spacing} {b : List Char} {i : Nat}

theorem readItems_spaced (hb : Space b) {vs : List Json} (hvs : ∀ w ∈ v :: vs, ReadsBack l w)
    (hfuel : 2 * (spacedItems l i (v :: vs)).length < fuel) :
    readItems (fuel + 1) (spacedItems l i (v :: vs) ++ (b ++ ']' :: rest)) =
      some (v :: vs, rest) := by
  have hv : ReadsBack l v := hvs v List.mem_cons_self
  induction vs generalizing v fuel with
  | nil =>
    have hlast : spacedItems l i [v] = l.lead i ++ v.spaced l i := rfl
    rw [hlast, List.length_append] at hfuel
    apply readItems_last hb
    rw [hlast, List.append_assoc, readValue_append (l.lead_space i)]
    exact hv i _ fuel (by omega)
  | cons w vs ih =>
    have hmore : spacedItems l i (v :: w :: vs) =
      l.lead i ++ v.spaced l i ++ ',' :: spacedItems l i (w :: vs) := rfl
    have hws : ∀ u ∈ w :: vs, ReadsBack l u := fun u hu => hvs u (List.mem_cons_of_mem v hu)
    simp only [hmore, List.length_append, List.length_cons] at hfuel
    obtain ⟨fuel, rfl⟩ := Nat.exists_eq_add_one_of_ne_zero (Nat.ne_zero_of_lt hfuel)
    rw [hmore, List.append_assoc, List.append_assoc]
    refine readItems_cons ?_ (ih hws (by omega) (hws w List.mem_cons_self))
    rw [readValue_append (l.lead_space i)]
    exact hv i _ (fuel + 1) (by omega)

theorem readMembers_spaced (hb : Space b) {m : Literal × Json} {ms : List (Literal × Json)}
    (hkeys : ∀ k ∈ m :: ms, k.1.isSome) (hms : ∀ k ∈ m :: ms, ReadsBack l k.2)
    (hfuel : 2 * (spacedMembers l i (m :: ms)).length < fuel) :
    readMembers (fuel + 1) (spacedMembers l i (m :: ms) ++ (b ++ '\x7d' :: rest)) =
      some (m :: ms, rest) := by
  induction ms generalizing m fuel with
  | nil =>
    obtain ⟨key, v⟩ := m
    obtain ⟨key, rfl⟩ := Option.isSome_iff_exists.1 (hkeys _ List.mem_cons_self)
    have hv : ReadsBack l v := hms _ List.mem_cons_self
    have hlast : spacedMembers l i [(some key, v)] =
      l.lead i ++ literal (some key) ++ ':' :: l.gap ++ v.spaced l i := rfl
    simp only [hlast, List.length_append, List.length_cons] at hfuel
    simp only [hlast, List.append_assoc, List.cons_append]
    refine readMembers_last hb (readKey_literal (l.lead_space i) key _) ?_
    rw [readValue_append l.gap_space]
    exact hv i _ fuel (by omega)
  | cons m' ms ih =>
    obtain ⟨key, v⟩ := m
    obtain ⟨key, rfl⟩ := Option.isSome_iff_exists.1 (hkeys _ List.mem_cons_self)
    have hv : ReadsBack l v := hms _ List.mem_cons_self
    have hmore : spacedMembers l i ((some key, v) :: m' :: ms) =
      l.lead i ++ literal (some key) ++ ':' :: l.gap ++ v.spaced l i ++
        ',' :: spacedMembers l i (m' :: ms) := rfl
    simp only [hmore, List.length_append, List.length_cons] at hfuel
    obtain ⟨fuel, rfl⟩ := Nat.exists_eq_add_one_of_ne_zero (Nat.ne_zero_of_lt hfuel)
    have hkeys' : ∀ k ∈ m' :: ms, k.1.isSome := fun k hk => hkeys k (List.mem_cons_of_mem _ hk)
    have hms' : ∀ k ∈ m' :: ms, ReadsBack l k.2 := fun k hk => hms k (List.mem_cons_of_mem _ hk)
    simp only [hmore, List.append_assoc, List.cons_append]
    refine readMembers_cons (readKey_literal (l.lead_space i) key _) ?_
      (ih hkeys' hms' (by omega))
    rw [readValue_append l.gap_space]
    exact hv i _ (fuel + 1) (by omega)

/-- A word that stands for a value is read as it, whatever follows. -/
theorem readsBack_word {w : List Char} (hw : ∀ i, v.spaced l i = w)
    (hread : ∀ fuel rest, readValue (fuel + 1) (w ++ rest) = some (v, rest)) : ReadsBack l v := by
  intro i rest fuel hfuel
  obtain ⟨fuel, rfl⟩ := Nat.exists_eq_add_one_of_ne_zero (Nat.ne_zero_of_lt hfuel)
  rw [hw, hread]

/-- The brackets of an array or object leave fuel for its elements, which are read back in turn. -/
theorem Textual.readsBack (h : Textual n v) : ReadsBack l v := by
  induction h with
  | null => exact readsBack_word (fun _ => rfl) fun _ _ => rfl
  | bool b => cases b <;> exact readsBack_word (fun _ => rfl) fun _ _ => rfl
  | text s => exact readsBack_word (fun _ => rfl) (readValue_text s)
  | @array _ items h ih =>
    intro i rest fuel hfuel
    obtain ⟨fuel, rfl⟩ := Nat.exists_eq_add_one_of_ne_zero (Nat.ne_zero_of_lt hfuel)
    cases items with
    | nil => rfl
    | cons v vs =>
      have htext : (Json.array (v :: vs)).spaced l i =
        '[' :: spacedItems l (i + 1) (v :: vs) ++ l.lead i ++ [']'] := rfl
      simp only [htext, List.length_append, List.length_cons, List.length_nil] at hfuel
      obtain ⟨fuel, rfl⟩ := Nat.exists_eq_add_one_of_ne_zero (n := fuel) (by omega)
      simp only [htext, List.append_assoc, List.cons_append, List.nil_append]
      exact readValue_array (readItems_spaced (l.lead_space i) ih (by omega))
  | @object _ members hkeys h ih =>
    intro i rest fuel hfuel
    obtain ⟨fuel, rfl⟩ := Nat.exists_eq_add_one_of_ne_zero (Nat.ne_zero_of_lt hfuel)
    cases members with
    | nil => rfl
    | cons m ms =>
      have htext : (Json.object (m :: ms)).spaced l i =
        '\x7b' :: spacedMembers l (i + 1) (m :: ms) ++ l.lead i ++ ['\x7d'] := rfl
      simp only [htext, List.length_append, List.length_cons, List.length_nil] at hfuel
      obtain ⟨fuel, rfl⟩ := Nat.exists_eq_add_one_of_ne_zero (n := fuel) (by omega)
      simp only [htext, List.append_assoc, List.cons_append, List.nil_append]
      exact readValue_object (readMembers_spaced (l.lead_space i) hkeys ih (by omega))

theorem Textual.read?_spaced (h : Textual n v) (l : Spacing) (i : Nat) :
    read? (v.spaced l i) = some v := by
  have hread : readValue (2 * (v.spaced l i).length + 2) (v.spaced l i) = some (v, []) := by
    simpa using h.readsBack (l := l) i [] (2 * (v.spaced l i).length + 2) (by omega)
  rw [read?, hread]
  rfl

theorem Textual.ofString?_compactText (h : Textual n v) : ofString? v.compactText = some v := by
  rw [ofString?, compactText, String.toList_ofList, ← spaced_dense 0, h.read?_spaced]

theorem Textual.ofString?_prettyText (h : Textual n v) : ofString? v.prettyText = some v := by
  rw [ofString?, prettyText, String.toList_ofList, ← spaced_broad, h.read?_spaced]

theorem Textual.mono {k : Nat} (h : Textual n v) (hnk : n ≤ k) : Textual k v := by
  induction h generalizing k with
  | null => exact .null
  | bool b => exact .bool b
  | text s => exact .text s
  | array _ ih =>
    obtain ⟨k, rfl⟩ := Nat.exists_eq_add_one_of_ne_zero (Nat.ne_zero_of_lt hnk)
    exact .array fun v hv => ih v hv (Nat.le_of_succ_le_succ hnk)
  | object hkeys _ ih =>
    obtain ⟨k, rfl⟩ := Nat.exists_eq_add_one_of_ne_zero (Nat.ne_zero_of_lt hnk)
    exact .object hkeys fun m hm => ih m hm (Nat.le_of_succ_le_succ hnk)

theorem haveValues_iff {vs : List Json} : haveValues vs = true ↔ ∀ v ∈ vs, v.hasValues = true := by
  induction vs with
  | nil => simp [haveValues]
  | cons v vs ih => simp [haveValues, ih]

theorem membersHaveValues_iff {ms : List (Literal × Json)} :
    membersHaveValues ms = true ↔ ∀ m ∈ ms, m.1.isSome ∧ m.2.hasValues = true := by
  induction ms with
  | nil => simp [membersHaveValues]
  | cons m ms ih => simp [membersHaveValues, ih]

theorem depthOfItems_le {vs : List Json} (h : ∀ v ∈ vs, v.depth ≤ n) : depthOfItems vs ≤ n := by
  induction vs with
  | nil => exact Nat.zero_le n
  | cons v vs ih =>
    obtain ⟨hv, hvs⟩ := List.forall_mem_cons.1 h
    exact Nat.max_le.2 ⟨hv, ih hvs⟩

theorem depthOfMembers_le {ms : List (Literal × Json)} (h : ∀ m ∈ ms, m.2.depth ≤ n) :
    depthOfMembers ms ≤ n := by
  induction ms with
  | nil => exact Nat.zero_le n
  | cons m ms ih =>
    obtain ⟨hm, hms⟩ := List.forall_mem_cons.1 h
    exact Nat.max_le.2 ⟨hm, ih hms⟩

theorem Textual.hasValues (h : Textual n v) : v.hasValues = true := by
  induction h with
  | null | bool | text => rfl
  | array _ ih => exact haveValues_iff.2 ih
  | object hkeys _ ih => exact membersHaveValues_iff.2 fun m hm => ⟨hkeys m hm, ih m hm⟩

theorem Textual.depth_le (h : Textual n v) : v.depth ≤ n := by
  induction h with
  | null | bool | text => exact Nat.zero_le _
  | array _ ih => exact Nat.succ_le_succ (depthOfItems_le ih)
  | object _ _ ih => exact Nat.succ_le_succ (depthOfMembers_le ih)

theorem Textual.isPlain (h : Textual n v) (hn : n < depthLimit) : v.isPlain = true := by
  have hdepth : v.depth < depthLimit := Nat.lt_of_le_of_lt h.depth_le hn
  simp [Json.isPlain, h.hasValues, hdepth]

end ClassDiagram.Json
