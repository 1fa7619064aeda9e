import ClassDiagram.Proofs.Packing
import Mathlib.Order.Bounds.Basic

/-! The columns of a block, looked for in machine words. The last number that is tried may have a
square above the number of names, but the square of the number before it was too small, so it lies
above twice the names by one at most. No product wraps around if the names leave one bit free. -/

namespace ClassDiagram.Layout

/-- The search for the columns of `n` names in words of `w` bits, in which products and sums wrap
around, from a number on: the numbers that are tried, and the one that is found. -/
inductive WordSearch {w : ℕ} (n : BitVec w) : BitVec w → List (BitVec w) → BitVec w → Prop
  | found {columns : BitVec w} (fits : ¬ columns * columns < n) :
    WordSearch n columns [columns] columns
  | next {columns result : BitVec w} {tried : List (BitVec w)} (small : columns * columns < n)
    (rest : WordSearch n (columns + 1#w) tried result) :
    WordSearch n columns (columns :: tried) result

theorem isLeast_squareColumnsFrom (n columns : ℕ) :
    IsLeast {c | columns ≤ c ∧ n ≤ c * c} (squareColumnsFrom n columns) := by
  fun_induction squareColumnsFrom n columns with
  | case1 columns hlt ih =>
    refine ⟨⟨(Nat.le_succ _).trans ih.1.1, ih.1.2⟩, ?_⟩
    rintro c ⟨hc, hn⟩
    have hne : columns ≠ c := by
      rintro rfl
      exact absurd hlt (Nat.not_lt.2 hn)
    exact ih.2 ⟨Nat.lt_of_le_of_ne hc hne, hn⟩
  | case2 columns hle => exact ⟨⟨Nat.le_refl _, Nat.le_of_not_lt hle⟩, fun c hc => hc.1⟩

theorem succ_mul_succ_le {n columns : ℕ} (h : columns * columns < n) :
    (columns + 1) * (columns + 1) ≤ 2 * n + 1 := by
  have hroot : 2 * columns ≤ columns * columns + 1 := by nlinarith [Nat.le_mul_self columns]
  have hsquare : (columns + 1) * (columns + 1) = columns * columns + 2 * columns + 1 := by ring
  omega

section

variable {w : ℕ} {n columns : BitVec w} (hn : 2 * n.toNat + 1 < 2 ^ w)

include hn

theorem toNat_one : (1#w).toNat = 1 := Nat.mod_eq_of_lt (by omega)

theorem toNat_mul_self (h : columns.toNat * columns.toNat ≤ 2 * n.toNat + 1) :
    (columns * columns).toNat = columns.toNat * columns.toNat := by
  rw [BitVec.toNat_mul, Nat.mod_eq_of_lt (h.trans_lt hn)]

theorem toNat_succ (h : (columns.toNat + 1) * (columns.toNat + 1) ≤ 2 * n.toNat + 1) :
    (columns + 1#w).toNat = columns.toNat + 1 := by
  have hlt : columns.toNat + (1#w).toNat < 2 ^ w := by
    rw [toNat_one hn]
    exact ((Nat.le_mul_self _).trans h).trans_lt hn
  rw [BitVec.toNat_add_of_lt hlt, toNat_one hn]

/-- In words the search tries the same numbers as without a bound, and finds the same one. -/
theorem exists_wordSearch (h : columns.toNat * columns.toNat ≤ 2 * n.toNat + 1) :
    ∃ tried result, WordSearch n columns tried result ∧
      result.toNat = squareColumnsFrom n.toNat columns.toNat ∧
      tried.map BitVec.toNat = List.range' columns.toNat (result.toNat + 1 - columns.toNat) ∧
      ∀ c ∈ tried, c.toNat * c.toNat ≤ 2 * n.toNat + 1 := by
  generalize hc : columns.toNat = start
  fun_induction squareColumnsFrom n.toNat start generalizing columns with
  | case1 start hlt ih =>
    subst hc
    have hnext := succ_mul_succ_le hlt
    have hsucc := toNat_succ hn hnext
    obtain ⟨tried, result, hsearch, hresult, htried, hproducts⟩ := ih (hsucc ▸ hnext) hsucc
    refine ⟨columns :: tried, result, .next ?_ hsearch, hresult, ?_, ?_⟩
    · rwa [BitVec.lt_def, toNat_mul_self hn h]
    · have hle : columns.toNat + 1 ≤ result.toNat := hresult ▸ le_squareColumnsFrom _ _
      have hcount : result.toNat + 1 - columns.toNat =
          result.toNat + 1 - (columns.toNat + 1) + 1 := by omega
      rw [List.map_cons, htried, hcount, List.range'_succ]
    · exact List.forall_mem_cons.2 ⟨h, hproducts⟩
  | case2 start hle =>
    subst hc
    refine ⟨[columns], columns, .found ?_, rfl, ?_, List.forall_mem_singleton.2 h⟩
    · rwa [BitVec.lt_def, toNat_mul_self hn h]
    · rw [Nat.add_sub_cancel_left]
      rfl

end

/-- In words of any size, as long as the number of names leaves one bit free, the search for columns
ends. It tries one number after the other, none of its products wraps around, and it finds what is
found without a bound: the least positive number whose square is not below the number of names. -/
theorem wordSearch_ends {w : ℕ} (hw : 0 < w) (n : BitVec w) (hn : n.toNat ≤ 2 ^ (w - 1) - 1) :
    ∃ tried columns, WordSearch n 1#w tried columns ∧
      tried.map BitVec.toNat = List.range' 1 columns.toNat ∧
      (∀ c ∈ tried, c.toNat * c.toNat < 2 ^ w) ∧
      columns.toNat = squareColumns n.toNat ∧
      IsLeast {c | 1 ≤ c ∧ n.toNat ≤ c * c} columns.toNat := by
  have hpow : 2 ^ w = 2 * 2 ^ (w - 1) := by rw [← pow_succ', Nat.sub_add_cancel hw]
  have hpos : 0 < 2 ^ (w - 1) := by positivity
  have hfree : 2 * n.toNat + 1 < 2 ^ w := by omega
  have hone := toNat_one hfree
  have hfirst : (1#w).toNat * (1#w).toNat ≤ 2 * n.toNat + 1 := by
    rw [hone]
    omega
  obtain ⟨tried, columns, hsearch, hcolumns, htried, hproducts⟩ := exists_wordSearch hfree hfirst
  rw [hone] at hcolumns htried
  refine ⟨tried, columns, hsearch, htried, fun c hc => (hproducts c hc).trans_lt hfree, hcolumns, ?_⟩
  rw [hcolumns]
  exact isLeast_squareColumnsFrom n.toNat 1

/-- As many names as a word of eight bits may count: the last product is above their number, and
above every number that the free bit leaves room for. -/
theorem wordSearch_ends_byte :
    0 < 8 ∧ (127#8).toNat ≤ 2 ^ (8 - 1) - 1 ∧ 127 < 12 * 12 ∧ 12 * 12 < 2 ^ 8 ∧
    ∃ tried, WordSearch 127#8 1#8 tried 12#8 ∧ ∀ c ∈ tried, c.toNat * c.toNat < 2 ^ 8 := by
  have hnames : (127#8).toNat ≤ 2 ^ (8 - 1) - 1 := by decide
  obtain ⟨tried, columns, hsearch, -, hproducts, hcolumns, -⟩ :=
    wordSearch_ends (by decide) 127#8 hnames
  have hgrid : NearSquare 127 12 11 := by constructor <;> decide
  have htwelve : squareColumns 127 = 12 := ((nearSquare (by decide)).unique hgrid).1
  obtain rfl : columns = 12#8 := BitVec.eq_of_toNat_eq (hcolumns.trans htwelve)
  exact ⟨by decide, hnames, by decide, by decide, tried, hsearch, hproducts⟩

end ClassDiagram.Layout
