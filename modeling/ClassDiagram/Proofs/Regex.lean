import ClassDiagram.Proofs.Arrow

/-! Regular expressions, matched with full backtracking. The ways in which an expression matches the
front of a text are listed in the order in which backtracking comes to them, so the first one counts.
A repetition gives characters back only where what follows may start with one of them. -/

namespace ClassDiagram.Relation

open Text

/-! ### Expressions and what they match -/

/-- The classes of characters that the expressions speak of. -/
inductive CharClass where
  | lit (c : Char)
  /-- `\w`, the ASCII letters and digits and the low line -/
  | word
  /-- `\s`, the property White_Space -/
  | blank
  /-- `[udlr]` -/
  | turn
  /-- `[^\]]` -/
  | inBrackets
  deriving DecidableEq, Repr

def CharClass.has : CharClass → Char → Bool
  | lit d, c => c = d
  | word, c => isWordChar c
  | blank, c => isBlank c
  | turn, c => isTurn c
  | inBrackets, c => c ≠ ']'

/-- Whether two classes are seen to share no character. -/
def CharClass.apart : CharClass → CharClass → Bool
  | lit c, j => !j.has c
  | k, lit c => !k.has c
  | word, blank | blank, word | turn, blank | blank, turn => true
  | _, _ => false

theorem CharClass.not_has_of_apart {k j : CharClass} {c : Char} (h : k.apart j) :
    ¬ (k.has c ∧ j.has c) := by
  rintro ⟨hk, hj⟩
  have hlit {k : CharClass} {d : Char} (hd : (!k.has d) = true) (hk : k.has c)
      (hc : (lit d).has c) : False := by
    obtain rfl : c = d := of_decide_eq_true hc
    simp [hk] at hd
  have hblank (hw : isWordChar c) (hb : isBlank c) : False := by
    simp [isBlank_of_isWordChar hw] at hb
  cases k with
  | lit d => exact hlit h hj hk
  | word =>
    cases j with
    | lit d => exact hlit h hk hj
    | blank => exact hblank hk hj
    | word | turn | inBrackets => exact Bool.false_ne_true h
  | blank =>
    cases j with
    | lit d => exact hlit h hk hj
    | word => exact hblank hj hk
    | turn => exact hblank (isWordChar_of_isTurn hj) hk
    | blank | inBrackets => exact Bool.false_ne_true h
  | turn =>
    cases j with
    | lit d => exact hlit h hk hj
    | blank => exact hblank (isWordChar_of_isTurn hk) hj
    | word | turn | inBrackets => exact Bool.false_ne_true h
  | inBrackets =>
    cases j with
    | lit d => exact hlit h hk hj
    | word | blank | turn | inBrackets => exact Bool.false_ne_true h

inductive Regex where
  | empty
  | one (k : CharClass)
  /-- As many characters as possible, perhaps none. -/
  | many (k : CharClass)
  | seq (r s : Regex)
  /-- The first expression, or else the second. -/
  | either (r s : Regex)
  /-- The first expression wherever a text begins that way, the second elsewhere. -/
  | prefer (r s : Regex)
  | group (r : Regex)
  deriving DecidableEq, Repr

structure Way where
  captures : List (List Char)
  rest : List Char
  deriving DecidableEq, Repr

def Way.andThen (w v : Way) : Way := ⟨w.captures ++ v.captures, v.rest⟩

@[simp] theorem Way.andThen_rest (w v : Way) : (w.andThen v).rest = v.rest := rfl

theorem Way.andThen_assoc (u v w : Way) : (u.andThen v).andThen w = u.andThen (v.andThen w) := by
  simp [Way.andThen]

@[simp] theorem Way.map_nil_andThen (cs : List Char) (ws : List Way) :
    ws.map (Way.andThen ⟨[], cs⟩) = ws := List.map_id ws

namespace Regex

def some (k : CharClass) : Regex := (one k).seq (many k)

def optional (r : Regex) : Regex := r.either empty

/-- The texts behind the runs of a class at the front of a text, that behind the longest first. -/
def rests (k : CharClass) : List Char → List (List Char)
  | [] => [[]]
  | c :: cs => if k.has c then rests k cs ++ [c :: cs] else [c :: cs]

/-- The ways in which an expression matches the front of a text, as backtracking comes to them. -/
def ways : Regex → List Char → List Way
  | empty, cs => [⟨[], cs⟩]
  | one _, [] => []
  | one k, c :: cs => if k.has c then [⟨[], cs⟩] else []
  | many k, cs => (rests k cs).map (Way.mk [])
  | seq r s, cs => (r.ways cs).flatMap fun w => (s.ways w.rest).map w.andThen
  | either r s, cs => r.ways cs ++ s.ways cs
  | prefer r s, cs => if r.ways cs = [] then s.ways cs else r.ways cs
  | group r, cs => (r.ways cs).map fun w =>
      ⟨cs.take (cs.length - w.rest.length) :: w.captures, w.rest⟩

/-- That an expression matches the front of a text, said without an order. -/
def Matches : Regex → List Char → Way → Prop
  | empty, cs, w => w = ⟨[], cs⟩
  | one k, cs, w => ∃ c, k.has c ∧ cs = c :: w.rest ∧ w.captures = []
  | many k, cs, w => ∃ run, (∀ c ∈ run, k.has c) ∧ cs = run ++ w.rest ∧ w.captures = []
  | seq r s, cs, w => ∃ u v, r.Matches cs u ∧ s.Matches u.rest v ∧ w = u.andThen v
  | either r s, cs, w => r.Matches cs w ∨ s.Matches cs w
  | prefer r s, cs, w => r.Matches cs w ∨ (∀ v, ¬ r.Matches cs v) ∧ s.Matches cs w
  | group r, cs, w => ∃ u text, r.Matches cs u ∧ cs = text ++ u.rest ∧
      w = ⟨text :: u.captures, u.rest⟩

variable {r s t : Regex} {k : CharClass} {cs : List Char} {w : Way} {c : Char}

theorem mem_rests {rest : List Char} :
    rest ∈ rests k cs ↔ ∃ run, (∀ c ∈ run, k.has c) ∧ cs = run ++ rest := by
  induction cs with
  | nil =>
    simp only [rests, List.mem_singleton]
    constructor
    · rintro rfl
      exact ⟨[], by simp, rfl⟩
    · rintro ⟨run, -, h⟩
      exact (List.append_eq_nil_iff.1 h.symm).2
  | cons c cs ih =>
    have hself : (∃ run, (∀ c ∈ run, k.has c) ∧ c :: cs = run ++ rest) ↔
        rest = c :: cs ∨ k.has c ∧ ∃ run, (∀ c ∈ run, k.has c) ∧ cs = run ++ rest := by
      constructor
      · rintro ⟨run, hrun, h⟩
        cases run with
        | nil => exact .inl h.symm
        | cons d run =>
          obtain ⟨rfl, hcs⟩ := List.cons.inj h
          obtain ⟨hc, hrun⟩ := List.forall_mem_cons.1 hrun
          exact .inr ⟨hc, run, hrun, hcs⟩
      · rintro (rfl | ⟨hc, run, hrun, h⟩)
        · exact ⟨[], by simp, rfl⟩
        · exact ⟨c :: run, List.forall_mem_cons.2 ⟨hc, hrun⟩, by rw [h]; rfl⟩
    rw [hself, ← ih, rests]
    split
    · next hc => simp [hc, or_comm]
    · next hc => simp [hc]

theorem Matches.suffix (h : r.Matches cs w) : w.rest <:+ cs := by
  induction r generalizing cs w with
  | empty =>
    obtain rfl : w = ⟨[], cs⟩ := h
    exact List.suffix_rfl
  | one k =>
    obtain ⟨c, -, rfl, -⟩ := h
    exact List.suffix_cons c w.rest
  | many k =>
    obtain ⟨run, -, rfl, -⟩ := h
    exact List.suffix_append run w.rest
  | seq r s ihr ihs =>
    obtain ⟨u, v, hu, hv, rfl⟩ := h
    exact (ihs hv).trans (ihr hu)
  | either r s ihr ihs => exact h.elim ihr ihs
  | prefer r s ihr ihs => exact h.elim ihr fun h => ihs h.2
  | group r ih =>
    obtain ⟨u, text, hu, -, rfl⟩ := h
    exact ih (w := u) hu

theorem take_front {text rest : List Char} (h : cs = text ++ rest) :
    cs.take (cs.length - rest.length) = text := by
  simp [h]

/-- Backtracking comes to every match, and to nothing else. -/
theorem mem_ways_iff : w ∈ r.ways cs ↔ r.Matches cs w := by
  induction r generalizing cs w with
  | empty => simp [ways, Matches]
  | one k =>
    obtain ⟨caps, rest⟩ := w
    cases cs with
    | nil => simp [ways, Matches]
    | cons c cs =>
      simp only [ways, Matches, List.cons.injEq]
      constructor
      · intro h
        split at h
        · next hc =>
          cases List.mem_singleton.1 h
          exact ⟨c, hc, ⟨rfl, rfl⟩, rfl⟩
        · contradiction
      · rintro ⟨c, hc, ⟨rfl, rfl⟩, rfl⟩
        rw [if_pos hc]
        exact List.mem_singleton_self _
  | many k =>
    obtain ⟨caps, rest⟩ := w
    simp only [ways, Matches, List.mem_map, mem_rests, Way.mk.injEq]
    constructor
    · rintro ⟨_, ⟨run, hrun, rfl⟩, rfl, rfl⟩
      exact ⟨run, hrun, rfl, rfl⟩
    · rintro ⟨run, hrun, rfl, rfl⟩
      exact ⟨rest, ⟨run, hrun, rfl⟩, rfl, rfl⟩
  | seq r s ihr ihs =>
    simp only [ways, Matches, List.mem_flatMap, List.mem_map, ihr, ihs]
    constructor
    · rintro ⟨u, hu, v, hv, rfl⟩
      exact ⟨u, v, hu, hv, rfl⟩
    · rintro ⟨u, v, hu, hv, rfl⟩
      exact ⟨u, hu, v, hv, rfl⟩
  | either r s ihr ihs => simp only [ways, Matches, List.mem_append, ihr, ihs]
  | prefer r s ihr ihs =>
    have hnil : r.ways cs = [] ↔ ∀ v, ¬ r.Matches cs v := by
      simp only [List.eq_nil_iff_forall_not_mem, ihr]
    simp only [ways, Matches]
    split
    · next hr =>
      have hr := hnil.1 hr
      simp [ihs, hr]
    · next hr => simp only [ihr, ← hnil, hr, false_and, or_false]
  | group r ih =>
    simp only [ways, Matches, List.mem_map, ih]
    constructor
    · rintro ⟨u, hu, rfl⟩
      obtain ⟨text, rfl⟩ := hu.suffix
      exact ⟨u, text, hu, rfl, by simp⟩
    · rintro ⟨u, text, hu, hcs, rfl⟩
      exact ⟨u, hu, by rw [take_front hcs]⟩

/-! ### What an expression may start with -/

/-- Whether an expression matches without reading anything. -/
def nullable : Regex → Bool
  | empty | many _ => true
  | one _ => false
  | seq r s => r.nullable && s.nullable
  | either r s | prefer r s => r.nullable || s.nullable
  | group r => r.nullable

/-- The classes of the characters that a match may read first. -/
def firsts : Regex → List CharClass
  | empty => []
  | one k | many k => [k]
  | seq r s => r.firsts ++ if r.nullable then s.firsts else []
  | either r s | prefer r s => r.firsts ++ s.firsts
  | group r => r.firsts

theorem Matches.of_firsts (h : r.Matches (c :: cs) w) (hc : ∀ k ∈ r.firsts, k.has c = false) :
    r.nullable ∧ w.rest = c :: cs := by
  induction r generalizing w with
  | empty =>
    obtain rfl : w = ⟨[], c :: cs⟩ := h
    exact ⟨rfl, rfl⟩
  | one k =>
    obtain ⟨d, hd, hcs, -⟩ := h
    obtain ⟨rfl, -⟩ := List.cons.inj hcs
    simp [hc k (List.mem_singleton_self k)] at hd
  | many k =>
    obtain ⟨run, hrun, hcs, -⟩ := h
    cases run with
    | nil => exact ⟨rfl, hcs.symm⟩
    | cons d run =>
      obtain ⟨rfl, -⟩ := List.cons.inj hcs
      simp [hc k (List.mem_singleton_self k)] at hrun
  | seq r s ihr ihs =>
    obtain ⟨u, v, hu, hv, rfl⟩ := h
    obtain ⟨hr, hrest⟩ := ihr hu fun k hk => hc k (List.mem_append_left _ hk)
    rw [hrest] at hv
    obtain ⟨hs, hrest⟩ := ihs hv fun k hk => hc k (by simp [firsts, hr, hk])
    exact ⟨by simp [nullable, hr, hs], hrest⟩
  | either r s ihr ihs =>
    rcases h with h | h
    · obtain ⟨hr, hrest⟩ := ihr h fun k hk => hc k (List.mem_append_left _ hk)
      exact ⟨by simp [nullable, hr], hrest⟩
    · obtain ⟨hs, hrest⟩ := ihs h fun k hk => hc k (List.mem_append_right _ hk)
      exact ⟨by simp [nullable, hs], hrest⟩
  | prefer r s ihr ihs =>
    rcases h with h | ⟨-, h⟩
    · obtain ⟨hr, hrest⟩ := ihr h fun k hk => hc k (List.mem_append_left _ hk)
      exact ⟨by simp [nullable, hr], hrest⟩
    · obtain ⟨hs, hrest⟩ := ihs h fun k hk => hc k (List.mem_append_right _ hk)
      exact ⟨by simp [nullable, hs], hrest⟩
  | group r ih =>
    obtain ⟨u, text, hu, -, rfl⟩ := h
    exact ih (w := u) hu hc

/-- Whether an expression reads something, and nothing of a class first. -/
def avoids (r : Regex) (k : CharClass) : Bool := !r.nullable && r.firsts.all k.apart

theorem ways_of_avoids (h : r.avoids k) (hc : k.has c) : r.ways (c :: cs) = [] := by
  simp only [avoids, Bool.and_eq_true, Bool.not_eq_true', List.all_eq_true] at h
  refine List.eq_nil_iff_forall_not_mem.2 fun w hw => ?_
  obtain ⟨hr, -⟩ := (mem_ways_iff.1 hw).of_firsts fun j hj =>
    Bool.eq_false_iff.2 fun hj' => CharClass.not_has_of_apart (h.2 j hj) ⟨hc, hj'⟩
  rw [h.1] at hr
  contradiction

/-! ### One expression after another -/

theorem ways_seq_assoc (r s t : Regex) (cs : List Char) :
    ((r.seq s).seq t).ways cs = (r.seq (s.seq t)).ways cs := by
  have hassoc (u v : Way) : (u.andThen v).andThen = u.andThen ∘ v.andThen :=
    funext (u.andThen_assoc v)
  simp [ways, hassoc, List.flatMap_assoc, List.flatMap_map, List.map_flatMap]

theorem ways_seq_congr (r : Regex) (h : ∀ cs, s.ways cs = t.ways cs) (cs : List Char) :
    (r.seq s).ways cs = (r.seq t).ways cs := by
  simp only [ways, h]

theorem ways_empty_seq (s : Regex) (cs : List Char) : (empty.seq s).ways cs = s.ways cs := by
  simp [ways]

theorem ways_one_seq (k : CharClass) (s : Regex) (c : Char) (cs : List Char) :
    ((one k).seq s).ways (c :: cs) = if k.has c then s.ways cs else [] := by
  cases hc : k.has c <;> simp [ways, hc]

theorem ways_optional_seq (r s : Regex) (cs : List Char) :
    (r.optional.seq s).ways cs = (r.seq s).ways cs ++ s.ways cs := by
  simp [optional, ways]

theorem ways_prefer_seq (r s t : Regex) (cs : List Char) :
    ((r.prefer s).seq t).ways cs =
      if r.ways cs = [] then (s.seq t).ways cs else (r.seq t).ways cs := by
  simp only [ways]
  split <;> rfl

theorem flatMap_rests {α : Type} {f : List Char → List α}
    (h : ∀ c cs, k.has c → f (c :: cs) = []) (cs : List Char) :
    (rests k cs).flatMap f = f (cs.dropWhile k.has) := by
  induction cs with
  | nil => simp [rests]
  | cons c cs ih =>
    cases hc : k.has c with
    | true => simp [rests, hc, ih, h c cs hc]
    | false => simp [rests, hc]

theorem head?_rests (k : CharClass) (cs : List Char) :
    (rests k cs).head? = Option.some (cs.dropWhile k.has) := by
  induction cs with
  | nil => rfl
  | cons c cs ih => cases hc : k.has c <;> simp [rests, hc, ih]

/-- Where nothing of a class may come first behind a repetition of it, the longest run decides. -/
theorem ways_many_seq (h : s.avoids k) (cs : List Char) :
    ((many k).seq s).ways cs = s.ways (cs.dropWhile k.has) := by
  simp only [ways, List.flatMap_map, Way.map_nil_andThen]
  exact flatMap_rests (fun c cs hc => ways_of_avoids h hc) cs

theorem ways_some_seq (h : s.avoids k) (cs : List Char) :
    ((some k).seq s).ways cs = (Scan.run k.has cs).elim [] fun p => s.ways p.2 := by
  rw [some, ways_seq_assoc]
  cases cs with
  | nil => rfl
  | cons c cs =>
    rw [ways_one_seq, ways_many_seq h, Scan.run_cons]
    split <;> rfl

theorem ways_some_eq_nil_iff : (some k).ways cs = [] ↔ Scan.run k.has cs = none := by
  cases cs with
  | nil => simp [some, ways, Scan.run]
  | cons c cs =>
    have hne : (rests k cs) ≠ [] := fun h => by simpa [h] using head?_rests k cs
    rw [some, ways_one_seq, Scan.run_cons]
    split <;> simp [ways, hne]

end Regex

end ClassDiagram.Relation
