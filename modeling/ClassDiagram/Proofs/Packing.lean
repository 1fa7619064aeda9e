import ClassDiagram.Proofs.Cluster

/-! How a cluster layout packs its components. Each fills a grid that is as near to a square as can
be, row by row, and the grids are stacked by size, those of one size in the order of the search. -/

namespace ClassDiagram.Layout

/-! ### Sizes of grids -/

/-- A grid for `n` names, of the fewest columns on whose square they fit, and of the fewest rows that
are enough then. It lacks one row at most to be a square. -/
structure NearSquare (n columns rows : ℕ) : Prop where
  lt_size : (columns - 1) * (columns - 1) < n
  size_le : n ≤ columns * columns
  columns_le : columns - 1 ≤ rows
  rows_le : rows ≤ columns
  rows_lt_size : (rows - 1) * columns < n
  size_le_rows : n ≤ rows * columns

theorem squareColumnsFrom_bounds {n columns : ℕ} (h : (columns - 1) * (columns - 1) < n) :
    (squareColumnsFrom n columns - 1) * (squareColumnsFrom n columns - 1) < n ∧
      n ≤ squareColumnsFrom n columns * squareColumnsFrom n columns := by
  fun_induction squareColumnsFrom n columns with
  | case1 columns hlt ih => exact ih hlt
  | case2 columns hle => exact ⟨h, Nat.le_of_not_lt hle⟩

theorem rows_bounds {n columns : ℕ} (hn : 0 < n) (hc : 0 < columns) :
    (rows n columns - 1) * columns < n ∧ n ≤ rows n columns * columns := by
  have hrows : rows n columns = (n - 1) / columns + 1 := by
    rw [rows, ← Nat.add_div_right _ hc]
    congr 1
    omega
  rw [hrows, Nat.add_sub_cancel, Nat.add_mul, Nat.one_mul]
  have hbelow := Nat.div_mul_le_self (n - 1) columns
  have habove := Nat.lt_div_mul_add hc (a := n - 1)
  omega

theorem nearSquare {n : ℕ} (hn : 0 < n) :
    NearSquare n (squareColumns n) (rows n (squareColumns n)) := by
  have hc := squareColumns_pos n
  obtain ⟨hlt, hle⟩ : (squareColumns n - 1) * (squareColumns n - 1) < n ∧
      n ≤ squareColumns n * squareColumns n := squareColumnsFrom_bounds hn
  generalize squareColumns n = columns at hc hlt hle ⊢
  obtain ⟨hbelow, habove⟩ := rows_bounds hn hc
  generalize rows n columns = rows at hbelow habove
  refine ⟨hlt, hle, ?_, ?_, hbelow, habove⟩
  · -- With two rows less than columns, a square of one column less would do.
    by_contra hfew
    obtain ⟨d, rfl⟩ : ∃ d, columns = rows + 2 + d := ⟨columns - (rows + 2), by omega⟩
    have hpred : rows + 2 + d - 1 = rows + 1 + d := by omega
    have hsquare : rows * (rows + 2 + d) ≤ (rows + 1 + d) * (rows + 1 + d) := by
      nlinarith [Nat.zero_le (rows * d)]
    rw [hpred] at hlt
    omega
  · by_contra hmany
    have hall := Nat.mul_le_mul_right columns (show columns ≤ rows - 1 by omega)
    omega

theorem NearSquare.unique {n columns rows columns' rows' : ℕ} (h : NearSquare n columns rows)
    (h' : NearSquare n columns' rows') : columns = columns' ∧ rows = rows' := by
  have hc := Nat.mul_self_lt_mul_self_iff.1 (h.lt_size.trans_le h'.size_le)
  have hc' := Nat.mul_self_lt_mul_self_iff.1 (h'.lt_size.trans_le h.size_le)
  obtain rfl : columns = columns' := by omega
  have hr := Nat.lt_of_mul_lt_mul_right (h.rows_lt_size.trans_le h'.size_le_rows)
  have hr' := Nat.lt_of_mul_lt_mul_right (h'.rows_lt_size.trans_le h.size_le_rows)
  exact ⟨rfl, by omega⟩

/-! ### Order of components -/

theorem longer_trans (a b d : List String) (hab : decide (b.length ≤ a.length) = true)
    (hbd : decide (d.length ≤ b.length) = true) : decide (d.length ≤ a.length) = true := by
  rw [decide_eq_true_eq] at *
  omega

theorem longer_total (a b : List String) :
    (decide (b.length ≤ a.length) || decide (a.length ≤ b.length)) = true := by
  rw [Bool.or_eq_true, decide_eq_true_eq, decide_eq_true_eq]
  omega

theorem bySize_perm (components : List (List String)) : (bySize components).Perm components :=
  List.mergeSort_perm _ _

theorem bySize_pairwise (components : List (List String)) :
    (bySize components).Pairwise fun a b => b.length ≤ a.length :=
  (List.pairwise_mergeSort longer_trans longer_total components).imp of_decide_eq_true

/-- Components of one size stay in their order. -/
theorem filter_bySize (components : List (List String)) (n : ℕ) :
    (bySize components).filter (·.length = n) = components.filter (·.length = n) := by
  have hsame : (components.filter (·.length = n)).Pairwise fun a b =>
      decide (b.length ≤ a.length) = true := by
    refine List.pairwise_of_forall_mem_list fun a ha b hb => ?_
    simp only [List.mem_filter, decide_eq_true_eq] at ha hb ⊢
    omega
  have hkept : (components.filter (·.length = n)).Sublist (bySize components) :=
    List.sublist_mergeSort longer_trans longer_total hsame List.filter_sublist
  have hsub := hkept.filter (·.length = n)
  rw [List.filter_filter] at hsub
  simp only [Bool.and_self] at hsub
  exact (hsub.eq_of_length ((bySize_perm components).filter _).length_eq.symm).symm

namespace Cluster

variable {c : Config ℚ} {height : ℚ} {blocks : List (List String)} {names : List String}

/-- The height at which a block of a stack starts. -/
def origin (c : Config ℚ) (height : ℚ) (blocks : List (List String)) (k : ℕ) : ℚ :=
  (blocks.take k).foldl (fun height names => below c height names.length) height

theorem origin_cons (c : Config ℚ) (height : ℚ) (names : List String)
    (blocks : List (List String)) (k : ℕ) :
    origin c height (names :: blocks) (k + 1) =
      origin c (below c height names.length) blocks k := rfl

theorem origin_succ {k : ℕ} (hk : blocks[k]? = some names) :
    origin c height blocks (k + 1) =
      below c (origin c height blocks k) names.length := by
  rw [origin, List.take_add_one, hk, List.foldl_append]
  rfl

theorem mem_stack {k i : ℕ} {x : String} (hk : blocks[k]? = some names)
    (hi : names[i]? = some x) :
    (x, c.cell (origin c height blocks k) (i % squareColumns names.length)
      (i / squareColumns names.length)) ∈ stack c height blocks := by
  induction blocks generalizing height k with
  | nil => simp at hk
  | cons first more ih =>
    cases k with
    | zero =>
      obtain rfl : first = names := by simpa using hk
      refine List.mem_append_left _ (List.mem_map.2 ⟨(x, i), ?_, rfl⟩)
      exact List.mem_zipIdx_iff_getElem?.2 hi
    | succ k =>
      rw [origin_cons]
      exact List.mem_append_right _ (ih hk)

theorem find?_positions (c : Config ℚ) (nodes : List String) (relations : List Relation)
    {x : String} {p : Position ℚ}
    (h : (x, p) ∈ stack c c.padding (bySize (components nodes relations))) :
    (positions c nodes relations).find? x = some p := by
  refine NameMap.find?_ofList_of_mem ?_ h
  rw [names_stack, (bySize_perm _).flatten.nodup_iff]
  exact nodup_flatten_components nodes relations

/-- The components are placed by decreasing size, those of one size in the order of the search. Each
fills the cells of a grid that is nearly square, row by row. The first grid starts at the padding,
and each of the others below the one before it, with two spacings more between them. -/
theorem positions_packed (c : Config ℚ) (nodes : List String) (relations : List Relation) :
    ∃ (blocks : List (List String)) (origin : ℕ → ℚ),
      blocks.Perm (components nodes relations) ∧
      blocks.Pairwise (fun a b => b.length ≤ a.length) ∧
      (∀ n, blocks.filter (·.length = n) = (components nodes relations).filter (·.length = n)) ∧
      origin 0 = c.padding ∧
      ∀ k names, blocks[k]? = some names → ∃ columns rows, NearSquare names.length columns rows ∧
        (∀ i x, names[i]? = some x → (positions c nodes relations).find? x = some
          ⟨c.padding + ((i % columns : ℕ) : ℚ) * (c.nodeWidth + c.horizontalSpacing),
            origin k + ((i / columns : ℕ) : ℚ) * (c.nodeHeight + c.verticalSpacing)⟩) ∧
        origin (k + 1) = origin k + (rows : ℚ) * (c.nodeHeight + c.verticalSpacing) +
          2 * c.verticalSpacing := by
  set blocks := bySize (components nodes relations) with hblocks
  refine ⟨blocks, origin c c.padding blocks, bySize_perm _, bySize_pairwise _, filter_bySize _, rfl,
    fun k names hk => ?_⟩
  have hne : names ≠ [] := by
    rintro rfl
    exact componentsOf_nonempty _ _ ((bySize_perm _).subset (List.mem_of_getElem? hk))
  refine ⟨_, _, nearSquare (List.length_pos_iff.2 hne), fun i x hi => ?_, ?_⟩
  · exact find?_positions c nodes relations (mem_stack hk hi)
  · rw [origin_succ hk, below, ← add_assoc]
    rfl

/-- A name that stands alone in front of three connected names. -/
def village : List String := ["Solo", "A", "B", "C"]

def villageRelations : List Relation := [⟨"A", "B", .association⟩, ⟨"C", "B", .nested⟩]

theorem components_village : components village villageRelations = [["Solo"], ["A", "B", "C"]] :=
  components_of_within (by decide)

/-- The three names fill two rows of a grid with two columns, so the name alone stands a row and two
spacings below them. -/
theorem positions_packed_village :
    [["A", "B", "C"], ["Solo"]].Perm (components village villageRelations) ∧
    (positions Config.standard village villageRelations).find? "C" = some ⟨50, (250 : ℚ)⟩ ∧
    (positions Config.standard village villageRelations).find? "Solo" = some ⟨50, (650 : ℚ)⟩ := by
  obtain ⟨blocks, origin, hperm, hsorted, -, horigin, hblocks⟩ :=
    positions_packed Config.standard village villageRelations
  have hlargest : blocks.Perm [["A", "B", "C"], ["Solo"]] := by
    rw [components_village] at hperm
    exact hperm.trans (.swap _ _ _)
  obtain rfl : blocks = [["A", "B", "C"], ["Solo"]] := by
    refine hlargest.eq_of_pairwise ?_ hsorted (by decide)
    intro a b ha hb
    rcases List.mem_pair.1 (hlargest.subset ha) with rfl | rfl <;>
      rcases List.mem_pair.1 hb with rfl | rfl <;> simp
  have hthree : NearSquare 3 2 2 := by constructor <;> decide
  have hone : NearSquare 1 1 1 := by constructor <;> decide
  obtain ⟨columns, rows, hgrid, hplaces, hbelow⟩ := hblocks 0 ["A", "B", "C"] rfl
  obtain ⟨rfl, rfl⟩ := hgrid.unique hthree
  obtain ⟨columns, rows, hcell, hplace, -⟩ := hblocks 1 ["Solo"] rfl
  obtain ⟨rfl, rfl⟩ := hcell.unique hone
  have hsolo := hplace 0 "Solo" rfl
  rw [hbelow] at hsolo
  refine ⟨hperm, (hplaces 2 "C" rfl).trans ?_, hsolo.trans ?_⟩ <;>
    norm_num [horigin, Config.standard]

end Cluster

end ClassDiagram.Layout
