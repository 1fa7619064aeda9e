import ClassDiagram.Proofs.Text
import ClassDiagram.Schema.TypeSpec

/-! Where a type ends and its cardinality starts. Of all the ways to read a text as a type with a
cardinality in brackets behind it, the one with the shortest type is taken; a text that cannot be
read so is a type as a whole. -/

namespace ClassDiagram.TypeSpec

open Text

variable {cs base card : List Char}

/-! ### The bracket that opens -/

structure Opens (cs base card : List Char) : Prop where
  base_ne_nil : base ≠ []
  card_ne_nil : card ≠ []
  eq : cs = base ++ '[' :: card

theorem opens_of_splitCardinality (h : splitCardinality cs = some (base, card)) :
    Opens cs base card := by
  fun_induction splitCardinality cs generalizing base with
  | case1 => cases h
  | case2 c d more =>
    obtain ⟨rfl, rfl⟩ := Prod.mk.inj (Option.some.inj h)
    exact ⟨List.cons_ne_nil _ _, List.cons_ne_nil _ _, rfl⟩
  | case3 c cs _ ih =>
    obtain ⟨p, hp, heq⟩ := Option.map_eq_some_iff.1 h
    obtain ⟨rfl, rfl⟩ := Prod.mk.inj heq
    have hrest := ih hp
    exact ⟨List.cons_ne_nil _ _, hrest.card_ne_nil, congrArg (c :: ·) hrest.eq⟩

/-- Where a text can be split at all it is split, and not behind any place where it can be. -/
theorem exists_splitCardinality (h : Opens cs base card) :
    ∃ p, splitCardinality cs = some p ∧ p.1.length ≤ base.length := by
  fun_induction splitCardinality cs generalizing base with
  | case1 => exact absurd h.eq (by simp)
  | case2 c d more => exact ⟨_, rfl, List.length_pos_iff.2 h.base_ne_nil⟩
  | case3 c cs hnext ih =>
    obtain ⟨b, rest, rfl⟩ := List.exists_cons_of_ne_nil h.base_ne_nil
    obtain ⟨-, heq⟩ := List.cons.inj h.eq
    -- A bracket behind the first character alone would have been found by the case before.
    have hrest : rest ≠ [] := by
      rintro rfl
      obtain ⟨d, more, hcard⟩ := List.exists_cons_of_ne_nil h.card_ne_nil
      exact hnext d more (by rw [heq, hcard]; rfl)
    obtain ⟨p, hp, hle⟩ := ih ⟨hrest, h.card_ne_nil, heq⟩
    exact ⟨(c :: p.1, p.2), by rw [hp]; rfl, Nat.succ_le_succ hle⟩

/-- A bracket that is not in a type, but for its first character, is the one that opens. -/
theorem splitCardinality_append {first : Char} {rest : List Char} (hrest : '[' ∉ rest)
    (hcard : card ≠ []) :
    splitCardinality (first :: rest ++ '[' :: card) = some (first :: rest, card) := by
  have hopens : Opens (first :: rest ++ '[' :: card) (first :: rest) card :=
    ⟨List.cons_ne_nil _ _, hcard, rfl⟩
  obtain ⟨⟨base, card'⟩, hsplit, hle⟩ := exists_splitCardinality hopens
  have hfound := opens_of_splitCardinality hsplit
  obtain ⟨c, base, rfl⟩ := List.exists_cons_of_ne_nil hfound.base_ne_nil
  obtain ⟨rfl, heq⟩ : first = c ∧ rest ++ '[' :: card = base ++ '[' :: card' :=
    List.cons.inj hfound.eq
  -- The shorter of two fronts of one text is a front of the other, so it has no bracket either.
  have hfront : base <+: rest := by
    refine List.prefix_of_prefix_length_le ⟨_, heq.symm⟩ ⟨_, rfl⟩ ?_
    simpa using hle
  have hcut := congrArg (cut? ['[']) heq
  rw [cut?_singleton hrest, cut?_singleton fun h => hrest (hfront.subset h)] at hcut
  obtain ⟨rfl, rfl⟩ := Prod.mk.inj (Option.some.inj hcut)
  exact hsplit

/-! ### Texts with both brackets -/

/-- A type that is not empty with a cardinality that is not empty in brackets behind it. -/
structure HasCardinality (raw base card : String) : Prop where
  base_ne_empty : base ≠ ""
  card_ne_empty : card ≠ ""
  eq : raw = base ++ "[" ++ card ++ "]"

/-- The reading of a text as a type with a cardinality that makes the type shortest. -/
structure Shortest (raw base card : String) : Prop extends HasCardinality raw base card where
  length_le : ∀ base' card', HasCardinality raw base' card' → base.length ≤ base'.length

/-- A type with the flags that a cardinality stands for. -/
structure Flagged (card : String) (spec : TypeSpec) : Prop where
  optional_iff : spec.optional = true ↔ card.toList.head? = some '0'
  many_iff : spec.many = true ↔ 'n' ∈ card.toList ∨ '*' ∈ card.toList

variable {raw : String}

theorem hasCardinality_iff {base card : String} : HasCardinality raw base card ↔
    ∃ cs, raw.toList = cs ++ [']'] ∧ Opens cs base.toList card.toList := by
  constructor
  · rintro ⟨hbase, hcard, rfl⟩
    refine ⟨base.toList ++ '[' :: card.toList, by simp, ?_, ?_, rfl⟩
    · simpa using hbase
    · simpa using hcard
  · rintro ⟨cs, hraw, hbase, hcard, rfl⟩
    refine ⟨by simpa using hbase, by simpa using hcard, String.toList_inj.1 ?_⟩
    rw [hraw]
    simp

theorem split?_of_concat {cs : List Char} (h : raw.toList = cs ++ [']']) :
    split? raw.toList = splitCardinality cs := by
  simp [split?, h]

theorem hasCardinality_of_split? (h : split? raw.toList = some (base, card)) :
    HasCardinality raw (String.ofList base) (String.ofList card) := by
  rw [hasCardinality_iff, String.toList_ofList, String.toList_ofList]
  by_cases hlast : raw.toList.getLast? = some ']'
  · obtain ⟨cs, hcs⟩ := List.getLast?_eq_some_iff.1 hlast
    rw [split?_of_concat hcs] at h
    exact ⟨cs, hcs, opens_of_splitCardinality h⟩
  · rw [split?, if_neg hlast] at h
    cases h

theorem exists_split? {base card : String} (h : HasCardinality raw base card) :
    ∃ p, split? raw.toList = some p ∧ p.1.length ≤ base.length := by
  obtain ⟨cs, hcs, hopens⟩ := hasCardinality_iff.1 h
  rw [split?_of_concat hcs]
  exact exists_splitCardinality hopens

theorem parse_of_split? (h : split? raw.toList = some (base, card)) :
    (parse raw).base = String.ofList (trim base) ∧ Flagged (String.ofList card) (parse raw) := by
  rw [parse, h]
  exact ⟨rfl, by simp, by simp⟩

theorem parse_of_split?_eq_none (h : split? raw.toList = none) :
    parse raw = ⟨raw, false, false⟩ := by
  rw [parse, h]

theorem HasCardinality.trim_ne {base card : String} (h : HasCardinality raw base card) :
    String.ofList (trim base.toList) ≠ raw := by
  intro heq
  have hlength := congrArg (List.length ∘ String.toList) (heq.trans h.eq)
  have htrim := (trim_isInfix base.toList).length_le
  simp at hlength
  omega

/-- A text is split exactly if it can be read as a type and a cardinality in brackets, neither of
them empty, and then it is split where the type is shortest. Without such a reading it is a type as
a whole. So a type that has no bracket behind its first character is what it was before a
cardinality was written behind it. -/
theorem parse_cardinality :
    (∀ raw : String,
      ((parse raw).base ≠ raw ↔ ∃ base card, HasCardinality raw base card) ∧
      ((∃ base card, HasCardinality raw base card) → ∃ base card, Shortest raw base card ∧
        (parse raw).base = String.ofList (trim base.toList) ∧ Flagged card (parse raw)) ∧
      ((¬ ∃ base card, HasCardinality raw base card) → parse raw = ⟨raw, false, false⟩)) ∧
    ∀ (first : Char) (rest : List Char) (card : String), Trimmed (first :: rest) → '[' ∉ rest →
      card ≠ "" →
      (parse (String.ofList (first :: rest) ++ "[" ++ card ++ "]")).base =
          String.ofList (first :: rest) ∧
        Flagged card (parse (String.ofList (first :: rest) ++ "[" ++ card ++ "]")) := by
  refine ⟨fun raw => ?_, fun first rest card htrim hrest hcard => ?_⟩
  · cases hsplit : split? raw.toList with
    | none =>
      have hnone : ¬ ∃ base card, HasCardinality raw base card := by
        rintro ⟨base, card, h⟩
        obtain ⟨p, hp, -⟩ := exists_split? h
        rw [hsplit] at hp
        cases hp
      have hplain := parse_of_split?_eq_none hsplit
      exact ⟨by simp [hplain, hnone], fun h => absurd h hnone, fun _ => hplain⟩
    | some p =>
      have hread := hasCardinality_of_split? hsplit
      obtain ⟨hbase, hflags⟩ := parse_of_split? hsplit
      have hne : (parse raw).base ≠ raw := by
        have hshort := hread.trim_ne
        rwa [String.toList_ofList, ← hbase] at hshort
      have hleast : Shortest raw (String.ofList p.1) (String.ofList p.2) := by
        refine ⟨hread, fun base' card' h => ?_⟩
        obtain ⟨q, hq, hle⟩ := exists_split? h
        obtain rfl := Option.some.inj (hsplit.symm.trans hq)
        simpa using hle
      refine ⟨iff_of_true hne ⟨_, _, hread⟩, fun _ => ⟨_, _, hleast, ?_, hflags⟩,
        fun h => absurd ⟨_, _, hread⟩ h⟩
      rw [hbase, String.toList_ofList]
  · have hraw : (String.ofList (first :: rest) ++ "[" ++ card ++ "]").toList =
        (first :: rest ++ '[' :: card.toList) ++ [']'] := by simp
    have hsplit := split?_of_concat hraw
    rw [splitCardinality_append hrest (by simpa using hcard)] at hsplit
    obtain ⟨hbase, hflags⟩ := parse_of_split? hsplit
    rw [String.ofList_toList] at hflags
    exact ⟨hbase.trans (congrArg String.ofList htrim), hflags⟩

/-- A bracket at the front belongs to the type, and one at the front of a cardinality to that. -/
theorem parse_cardinality_nested :
    Trimmed "[é".toList ∧ '[' ∉ ['é'] ∧ "[0*]" ≠ "" ∧ (parse "[é[[0*]]").base = "[é" ∧
      (parse "[é[[0*]]").optional = false ∧ (parse "[é[[0*]]").many = true := by
  have htrim : Trimmed "[é".toList := by decide
  have hrest : '[' ∉ ['é'] := by decide
  have hcard : "[0*]" ≠ "" := by decide
  obtain ⟨hbase, hoptional, hmany⟩ := parse_cardinality.2 '[' ['é'] "[0*]" htrim hrest hcard
  refine ⟨htrim, hrest, hcard, hbase, Bool.eq_false_iff.2 fun h => ?_, hmany.2 (.inr (by decide))⟩
  exact absurd (hoptional.1 h) (by decide)

end ClassDiagram.TypeSpec
