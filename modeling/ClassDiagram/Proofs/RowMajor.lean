import ClassDiagram.Proofs.Grid
import Mathlib.Data.List.Induction

/-! The grid layout has no gaps. The different names take the cells of a grid row by row, in the
order in which they occur first. A name is entered into the cell whose number is the size of the map,
so a repeat, which leaves the map as it is, takes no cell. -/

namespace ClassDiagram.Layout.Grid

variable {c : Config ℚ} {nodes : List String} {columns : ℕ} {x y : String}

/-! ### Cells -/

/-- The column and the row of a name, whose number is that of its first occurrence among the
different names. -/
def cellOf (columns : ℕ) (nodes : List String) (x : String) : ℕ × ℕ :=
  (nodes.eraseDups.idxOf x % columns, nodes.eraseDups.idxOf x / columns)

theorem cellOf_getElem {k : ℕ} (hk : nodes.eraseDups[k]? = some x) :
    cellOf columns nodes x = (k % columns, k / columns) := by
  obtain ⟨hlt, rfl⟩ := List.getElem?_eq_some_iff.1 hk
  rw [cellOf, (nodup_eraseDups nodes).idxOf_getElem]

theorem exists_number (hx : x ∈ nodes) : ∃ k : ℕ, nodes.eraseDups[k]? = some x :=
  List.mem_iff_getElem?.1 (List.mem_eraseDups.2 hx)

theorem eq_of_cell {i j : ℕ} (h : (i % columns, i / columns) = (j % columns, j / columns)) :
    i = j := by
  obtain ⟨hcolumn, hrow⟩ := Prod.mk.inj h
  rw [← Nat.div_add_mod i columns, ← Nat.div_add_mod j columns, hcolumn, hrow]

theorem cellOf_inj (hx : x ∈ nodes) (hy : y ∈ nodes)
    (h : cellOf columns nodes x = cellOf columns nodes y) : x = y := by
  obtain ⟨i, hi⟩ := exists_number hx
  obtain ⟨j, hj⟩ := exists_number hy
  rw [cellOf_getElem hi, cellOf_getElem hj] at h
  obtain rfl := eq_of_cell h
  exact Option.some.inj (hi.symm.trans hj)

/-- The cells in use are the first ones, as many as there are different names. -/
theorem exists_cellOf_iff (hc : 0 < columns) (column row : ℕ) :
    (∃ x ∈ nodes, cellOf columns nodes x = (column, row)) ↔
      column < columns ∧ row * columns + column < nodes.eraseDups.length := by
  constructor
  · rintro ⟨x, hx, hcell⟩
    obtain ⟨k, hk⟩ := exists_number hx
    rw [cellOf_getElem hk] at hcell
    obtain ⟨rfl, rfl⟩ := Prod.mk.inj hcell
    refine ⟨Nat.mod_lt k hc, ?_⟩
    rw [Nat.mul_comm, Nat.div_add_mod]
    exact (List.getElem?_eq_some_iff.1 hk).1
  · rintro ⟨hcolumn, hk⟩
    refine ⟨nodes.eraseDups[row * columns + column], List.mem_eraseDups.1 (List.getElem_mem hk), ?_⟩
    have hcell : (row * columns + column) / columns = row ∧
        (row * columns + column) % columns = column :=
      (Nat.div_mod_unique hc).2 ⟨by rw [Nat.mul_comm, Nat.add_comm], hcolumn⟩
    rw [cellOf_getElem (List.getElem?_eq_getElem hk), hcell.1, hcell.2]

/-! ### Maps -/

theorem find?_positions {k : ℕ} (hk : nodes.eraseDups[k]? = some x) :
    (positions c nodes).find? x = some
      (c.cell c.padding (k % max c.gridColumns 1) (k / max c.gridColumns 1)) := by
  rw [positions_eq]
  refine NameMap.find?_ofList_of_mem ?_ ?_
  · rw [names_cells]
    exact nodup_eraseDups nodes
  · exact List.mem_map.2 ⟨(x, k), List.mem_zipIdx_iff_getElem?.2 hk, rfl⟩

theorem length_names_positions (c : Config ℚ) (nodes : List String) :
    (positions c nodes).names.length = nodes.eraseDups.length := by
  have hsame : ∀ x, x ∈ (positions c nodes).names ↔ x ∈ nodes.eraseDups := fun x => by
    rw [mem_names_positions, List.mem_eraseDups]
  have hnames := NameMap.nodup_names (positions c nodes)
  exact ((List.perm_ext_iff_of_nodup hnames (nodup_eraseDups nodes)).2 hsame).length_eq

/-- Puts a name that a map does not hold into the first free cell. -/
def enter (c : Config ℚ) (placed : NameMap (Position ℚ)) (name : String) : NameMap (Position ℚ) :=
  if name ∈ placed.names then placed
  else placed.insert name (c.cell c.padding (placed.names.length % max c.gridColumns 1)
    (placed.names.length / max c.gridColumns 1))

theorem cells_append_singleton (c : Config ℚ) (names : List String) (x : String) :
    cells c (names ++ [x]) = cells c names ++ [(x, c.cell c.padding
      (names.length % max c.gridColumns 1) (names.length / max c.gridColumns 1))] := by
  simp [cells, List.zipIdx_append]

theorem positions_append_singleton (c : Config ℚ) (nodes : List String) (x : String) :
    positions c (nodes ++ [x]) = enter c (positions c nodes) x := by
  rw [enter, length_names_positions, positions_eq, eraseDups_append_singleton]
  simp only [mem_names_positions]
  split
  · rfl
  · rw [cells_append_singleton, NameMap.ofList_append_singleton, positions_eq]

theorem positions_eq_foldl (c : Config ℚ) (nodes : List String) :
    positions c nodes = nodes.foldl (enter c) NameMap.empty := by
  induction nodes using List.reverseRecOn with
  | nil => rfl
  | append_singleton nodes x ih =>
    rw [positions_append_singleton, ih, List.foldl_append]
    rfl

/-- The layout holds each name of the drawing once, at its cell. The cells in use are the first ones
of a grid in the order of rows, one for each name, and they are taken in the order in which the names
occur first: the layout enters one name after another, and repeats leave no gap. A cluster layout of
the same names holds the same ones, whatever relates them. -/
theorem positions_rowMajor (c : Config ℚ) (nodes : List String) (relations : List Relation) :
    let columns := max c.gridColumns 1
    (positions c nodes).names.Nodup ∧
    (∀ x, x ∈ (positions c nodes).names ↔ x ∈ nodes) ∧
    (∀ x ∈ nodes, (positions c nodes).find? x = some
      ⟨c.padding + ((cellOf columns nodes x).1 : ℚ) * (c.nodeWidth + c.horizontalSpacing),
        c.padding + ((cellOf columns nodes x).2 : ℚ) * (c.nodeHeight + c.verticalSpacing)⟩) ∧
    (∀ (k : ℕ) x, nodes.eraseDups[k]? = some x →
      cellOf columns nodes x = (k % columns, k / columns)) ∧
    (∀ column row, (∃ x ∈ nodes, cellOf columns nodes x = (column, row)) ↔
      column < columns ∧ row * columns + column < nodes.eraseDups.length) ∧
    (∀ x ∈ nodes, ∀ y ∈ nodes, cellOf columns nodes x = cellOf columns nodes y → x = y) ∧
    positions c nodes = nodes.foldl (enter c) NameMap.empty ∧
    positions c nodes.eraseDups = positions c nodes ∧
    (Cluster.positions c nodes relations).names = (positions c nodes).names := by
  intro columns
  refine ⟨NameMap.nodup_names _, mem_names_positions c nodes, fun x hx => ?_,
    fun k x hk => cellOf_getElem hk, exists_cellOf_iff (lt_max_of_lt_right Nat.zero_lt_one),
    fun x hx y hy h => cellOf_inj hx hy h, positions_eq_foldl c nodes, ?_, ?_⟩
  · obtain ⟨k, hk⟩ := exists_number hx
    rw [find?_positions hk, cellOf_getElem hk]
    rfl
  · rw [positions_eq, eraseDups_of_nodup (nodup_eraseDups nodes), positions_eq]
  · refine NameMap.names_eq fun x => ?_
    rw [Cluster.mem_names_positions, mem_names_positions]

def paired : Config ℚ := { Config.standard with gridColumns := 2 }

def echoes : List String := ["B", "A", "B", "C", "A"]

/-- The third name stands below the first one. -/
theorem positions_rowMajor_echoes :
    "C" ∈ echoes ∧ echoes.eraseDups[2]? = some "C" ∧ cellOf 2 echoes "C" = (0, 1) ∧
    (positions paired echoes).find? "C" = some ⟨50, 250⟩ ∧
    (∀ x ∈ echoes, cellOf 2 echoes x = (0, 1) → x = "C") ∧
    (Cluster.positions paired echoes []).names = (positions paired echoes).names := by
  have hmem : "C" ∈ echoes := by decide
  have hnumber : echoes.eraseDups[2]? = some "C" := by decide
  obtain ⟨-, -, hfind, hcells, -, hinj, -, -, hnames⟩ := positions_rowMajor paired echoes []
  have hcell : cellOf 2 echoes "C" = (0, 1) := hcells 2 "C" hnumber
  refine ⟨hmem, hnumber, hcell, (hfind "C" hmem).trans ?_,
    fun x hx h => hinj x hx "C" hmem (h.trans hcell.symm), hnames⟩
  have hcolumns : max paired.gridColumns 1 = 2 := rfl
  rw [hcolumns, hcell]
  norm_num [paired, Config.standard]

end ClassDiagram.Layout.Grid
