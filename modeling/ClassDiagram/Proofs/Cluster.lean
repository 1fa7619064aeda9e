import ClassDiagram.Layout.Cluster
import ClassDiagram.Proofs.Components
import Mathlib.Algebra.Order.Ring.Abs
import Mathlib.Algebra.Order.Ring.Rat
import Mathlib.Data.List.Pairwise
import Mathlib.Data.Nat.Cast.Order.Ring
import Mathlib.Tactic.Linarith
import Mathlib.Tactic.Ring

/-! In exact arithmetic no two boxes of a cluster layout come near each other. Two cells of a block
differ in their column or in their row, and a block ends a row above the next one. -/

namespace ClassDiagram.Layout

/-- A configuration without negative sizes and spacings. The padding may be anything. -/
structure Config.Nonneg (c : Config ℚ) : Prop where
  nodeWidth : 0 ≤ c.nodeWidth
  nodeHeight : 0 ≤ c.nodeHeight
  horizontalSpacing : 0 ≤ c.horizontalSpacing
  verticalSpacing : 0 ≤ c.verticalSpacing

namespace Config.Nonneg

variable {c : Config ℚ}

theorem columnStep (hc : c.Nonneg) : 0 ≤ c.columnStep :=
  add_nonneg hc.nodeWidth hc.horizontalSpacing

theorem rowStep (hc : c.Nonneg) : 0 ≤ c.rowStep := add_nonneg hc.nodeHeight hc.verticalSpacing

theorem padding_le_cell (hc : c.Nonneg) (height : ℚ) (column row : ℕ) :
    c.padding ≤ (c.cell height column row).x :=
  le_add_of_nonneg_right (mul_nonneg (Nat.cast_nonneg column) hc.columnStep)

theorem le_cell (hc : c.Nonneg) (height : ℚ) (column row : ℕ) :
    height ≤ (c.cell height column row).y :=
  le_add_of_nonneg_right (mul_nonneg (Nat.cast_nonneg row) hc.rowStep)

end Config.Nonneg

/-- Two corners are a whole step apart, from column to column or from row to row. -/
def Apart (c : Config ℚ) (p q : Position ℚ) : Prop :=
  c.columnStep ≤ |p.x - q.x| ∨ c.rowStep ≤ |p.y - q.y|

theorem Apart.symm {c : Config ℚ} {p q : Position ℚ} (h : Apart c p q) : Apart c q p := by
  rwa [Apart, abs_sub_comm q.x, abs_sub_comm q.y]

/-- A corner a row above another is apart from it. -/
theorem apart_of_rowStep_le {c : Config ℚ} {p q : Position ℚ} (h : p.y + c.rowStep ≤ q.y) :
    Apart c p q := by
  right
  rw [abs_sub_comm]
  exact le_trans (by linarith) (le_abs_self _)

/-- Two names of a map whose entries stand apart from one another. -/
theorem apart_of_find? {c : Config ℚ} {entries : List (String × Position ℚ)}
    (h : entries.Pairwise fun e f => Apart c e.2 f.2) {x y : String} {p q : Position ℚ} (hne : x ≠ y)
    (hx : (NameMap.ofList entries).find? x = some p)
    (hy : (NameMap.ofList entries).find? y = some q) : Apart c p q := by
  have hsymm : Std.Symm fun e f : String × Position ℚ => Apart c e.2 f.2 := ⟨fun _ _ => Apart.symm⟩
  have hpair := h.forall (NameMap.mem_of_find?_ofList hx) (NameMap.mem_of_find?_ofList hy)
  exact hpair fun heq => hne (congrArg Prod.fst heq)

/-! ### Cells -/

@[simp] theorem coordinate_ofNat (n : ℕ) : (Coordinate.ofNat n : ℚ) = n := rfl

/-- Different numbers of steps end at least a step apart. -/
theorem le_abs_steps {s : ℚ} (hs : 0 ≤ s) (start : ℚ) {i j : ℕ} (h : i ≠ j) :
    s ≤ |start + i * s - (start + j * s)| := by
  have hone : (1 : ℚ) ≤ |(i : ℚ) - j| := by
    have hint : (1 : ℤ) ≤ |(i : ℤ) - j| := Int.one_le_abs (by omega)
    exact_mod_cast hint
  have heq : start + i * s - (start + j * s) = ((i : ℚ) - j) * s := by ring
  rw [heq, abs_mul, abs_of_nonneg hs]
  exact le_mul_of_one_le_left hs hone

theorem cell_apart {c : Config ℚ} (hc : c.Nonneg) (height : ℚ) {columns i j : ℕ} (h : i ≠ j) :
    Apart c (c.cell height (i % columns) (i / columns))
      (c.cell height (j % columns) (j / columns)) := by
  by_cases hcol : i % columns = j % columns
  · have hrow : i / columns ≠ j / columns := fun hrow => h (by
      rw [← Nat.div_add_mod i columns, ← Nat.div_add_mod j columns, hcol, hrow])
    exact .inr (le_abs_steps hc.rowStep height hrow)
  · exact .inl (le_abs_steps hc.columnStep c.padding hcol)

theorem pairwise_zipIdx_ne (names : List String) : names.zipIdx.Pairwise fun e f => e.2 ≠ f.2 := by
  have hidx : (names.zipIdx.map Prod.snd).Nodup := by
    rw [List.zipIdx_map_snd]
    exact List.nodup_range'
  exact List.pairwise_map.1 hidx

/-! ### Blocks -/

theorem le_squareColumnsFrom (n columns : ℕ) : columns ≤ squareColumnsFrom n columns := by
  fun_induction squareColumnsFrom n columns with
  | case1 columns _ ih => exact Nat.le_of_succ_le ih
  | case2 columns _ => exact Nat.le_refl columns

theorem squareColumns_pos (n : ℕ) : 0 < squareColumns n := le_squareColumnsFrom n 1

theorem div_lt_rows {n columns i : ℕ} (hc : 0 < columns) (hi : i < n) :
    i / columns + 1 ≤ rows n columns := by
  rw [rows, ← Nat.add_div_right i hc]
  exact Nat.div_le_div_right (by omega)

namespace Cluster

variable {c : Config ℚ} {height : ℚ} {names : List String}

theorem names_block (c : Config ℚ) (height : ℚ) (names : List String) :
    (block c height names).map Prod.fst = names := by
  simp only [block, List.map_map, Function.comp_def]
  exact List.zipIdx_map_fst 0 names

theorem mem_block {e : String × Position ℚ} (he : e ∈ block c height names) :
    ∃ i < names.length, e.2 = c.cell height (i % squareColumns names.length)
      (i / squareColumns names.length) := by
  obtain ⟨⟨name, i⟩, hmem, rfl⟩ := List.mem_map.1 he
  exact ⟨i, List.snd_lt_of_mem_zipIdx hmem, rfl⟩

theorem block_apart (hc : c.Nonneg) (height : ℚ) (names : List String) :
    (block c height names).Pairwise fun e f => Apart c e.2 f.2 :=
  List.pairwise_map.2 ((pairwise_zipIdx_ne names).imp fun h => cell_apart hc height h)

theorem le_block (hc : c.Nonneg) {e : String × Position ℚ} (he : e ∈ block c height names) :
    height ≤ e.2.y := by
  obtain ⟨i, -, hcell⟩ := mem_block he
  rw [hcell]
  exact hc.le_cell height _ _

/-- The last row of a block ends where the next block starts, or above. -/
theorem block_le_below (hc : c.Nonneg) {e : String × Position ℚ}
    (he : e ∈ block c height names) : e.2.y + c.rowStep ≤ below c height names.length := by
  obtain ⟨i, hi, hcell⟩ := mem_block he
  have hrow := div_lt_rows (squareColumns_pos names.length) hi
  set columns := squareColumns names.length
  have hcast : ((i / columns : ℕ) : ℚ) + 1 ≤ (rows names.length columns : ℕ) := by
    exact_mod_cast hrow
  have hsteps := mul_le_mul_of_nonneg_right hcast hc.rowStep
  have hgap : 0 ≤ (2 : ℚ) * c.verticalSpacing := mul_nonneg (by norm_num) hc.verticalSpacing
  rw [hcell]
  simp only [below, Config.cell, coordinate_ofNat, Nat.cast_ofNat]
  linarith

theorem le_below (hc : c.Nonneg) (height : ℚ) (size : ℕ) : height ≤ below c height size := by
  have hrows : (0 : ℚ) ≤ (rows size (squareColumns size) : ℕ) * c.rowStep :=
    mul_nonneg (Nat.cast_nonneg _) hc.rowStep
  have hgap : 0 ≤ (2 : ℚ) * c.verticalSpacing := mul_nonneg (by norm_num) hc.verticalSpacing
  exact le_add_of_nonneg_right (add_nonneg hrows hgap)

/-! ### Stacks -/

theorem names_stack (c : Config ℚ) (height : ℚ) (components : List (List String)) :
    (stack c height components).map Prod.fst = components.flatten := by
  induction components generalizing height with
  | nil => rfl
  | cons names more ih => rw [stack, List.map_append, names_block, ih, List.flatten_cons]

theorem le_stack (hc : c.Nonneg) {components : List (List String)} {e : String × Position ℚ}
    (he : e ∈ stack c height components) : height ≤ e.2.y := by
  induction components generalizing height with
  | nil => simp [stack] at he
  | cons names more ih =>
    rcases List.mem_append.1 he with he | he
    · exact le_block hc he
    · exact (le_below hc height names.length).trans (ih he)

theorem stack_apart (hc : c.Nonneg) (height : ℚ) (components : List (List String)) :
    (stack c height components).Pairwise fun e f => Apart c e.2 f.2 := by
  induction components generalizing height with
  | nil => exact .nil
  | cons names more ih =>
    refine List.pairwise_append.2 ⟨block_apart hc height names, ih _, fun e he f hf => ?_⟩
    exact apart_of_rowStep_le ((block_le_below hc he).trans (le_stack hc hf))

/-! ### Layouts -/

theorem mem_names_positions (c : Config ℚ) (nodes : List String) (relations : List Relation)
    (x : String) : x ∈ (positions c nodes relations).names ↔ x ∈ nodes := by
  have hperm : (bySize (components nodes relations)).Perm (components nodes relations) :=
    List.mergeSort_perm _ _
  rw [positions, NameMap.mem_names_ofList, names_stack, hperm.flatten.mem_iff,
    mem_flatten_components]

/-- The layout places each name of the drawing once. Any two names stand a column with its spacing
or a row with its spacing apart, be they in one component or not. -/
theorem positions_apart (c : Config ℚ) (hc : c.Nonneg) (nodes : List String)
    (relations : List Relation) :
    (positions c nodes relations).names.Nodup ∧
    (∀ x, x ∈ (positions c nodes relations).names ↔ x ∈ nodes) ∧
    ∀ x y p q, x ≠ y → (positions c nodes relations).find? x = some p →
      (positions c nodes relations).find? y = some q →
      c.nodeWidth + c.horizontalSpacing ≤ |p.x - q.x| ∨
        c.nodeHeight + c.verticalSpacing ≤ |p.y - q.y| := by
  refine ⟨NameMap.nodup_names _, mem_names_positions c nodes relations, ?_⟩
  intro x y p q hne hx hy
  exact apart_of_find? (stack_apart hc c.padding _) hne hx hy

/-- Three connected names and one alone, with a name that is repeated and a relation that leads out
of the drawing. -/
def fourNames : List String := ["B", "A", "D", "B", "C"]

def fourRelations : List Relation :=
  [⟨"A", "B", .association⟩, ⟨"C", "A", .composition⟩, ⟨"D", "X", .inheritance⟩]

theorem positions_apart_fourNames :
    (Config.standard : Config ℚ).Nonneg ∧ "C" ≠ "D" ∧
      ∃ p q, (positions Config.standard fourNames fourRelations).find? "C" = some p ∧
        (positions Config.standard fourNames fourRelations).find? "D" = some q ∧
        (350 ≤ |p.x - q.x| ∨ (200 : ℚ) ≤ |p.y - q.y|) := by
  have hc : (Config.standard : Config ℚ).Nonneg := by constructor <;> decide
  have hne : "C" ≠ "D" := by decide
  obtain ⟨-, hkeys, hapart⟩ := positions_apart Config.standard hc fourNames fourRelations
  have hplace : ∀ x ∈ fourNames, ∃ p,
      (positions Config.standard fourNames fourRelations).find? x = some p := fun x hx =>
    Option.isSome_iff_exists.1 ((NameMap.mem_names_iff _ x).1 ((hkeys x).2 hx))
  obtain ⟨p, hp⟩ := hplace "C" (by decide)
  obtain ⟨q, hq⟩ := hplace "D" (by decide)
  have hwidth : (Config.standard : Config ℚ).nodeWidth +
      (Config.standard : Config ℚ).horizontalSpacing = 350 := by norm_num [Config.standard]
  have hheight : (Config.standard : Config ℚ).nodeHeight +
      (Config.standard : Config ℚ).verticalSpacing = 200 := by norm_num [Config.standard]
  refine ⟨hc, hne, p, q, hp, hq, ?_⟩
  have hpair := hapart "C" "D" p q hne hp hq
  rwa [hwidth, hheight] at hpair

end Cluster

end ClassDiagram.Layout
