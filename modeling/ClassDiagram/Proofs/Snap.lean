import ClassDiagram.CommandLine.Report
import ClassDiagram.Proofs.Grid

/-! In exact arithmetic a snapped value is less than one grid step further from another, or nearer to
it, than before. So boxes that stand a spacing of at least one step apart do not meet once they are
snapped, whichever layout placed them. -/

namespace ClassDiagram.Layout

variable {g : ℚ}

/-! ### The rounding of one value -/

theorem snapValue_eq (g v : ℚ) : snapValue g v = ((v / g + 1 / 2).floor : ℚ) * g := by
  simp [snapValue, Coordinate.floor]

/-- A value moves by at most half a step, and by half a step only upwards. -/
theorem snapValue_sub (hg : 0 < g) (v : ℚ) :
    -(g / 2) < snapValue g v - v ∧ snapValue g v - v ≤ g / 2 := by
  have hlower := Rat.floor_le (v / g + 1 / 2)
  have hupper := Rat.lt_floor_add_one (v / g + 1 / 2)
  rw [Rat.intCast_add, Rat.intCast_one] at hupper
  rw [snapValue_eq]
  set n : ℚ := ((v / g + 1 / 2).floor : ℚ)
  have hv : v / g * g = v := div_mul_cancel₀ v hg.ne'
  have hle : n * g ≤ (v / g + 1 / 2) * g := mul_le_mul_of_nonneg_right hlower hg.le
  have hlt : (v / g + 1 / 2) * g < (n + 1) * g := mul_lt_mul_of_pos_right hupper hg
  constructor <;> linarith

theorem abs_sub_lt_snapValue (hg : 0 < g) (v w : ℚ) :
    |v - w| < |snapValue g v - snapValue g w| + g := by
  obtain ⟨hv, hv'⟩ := snapValue_sub hg v
  obtain ⟨hw, hw'⟩ := snapValue_sub hg w
  have hmoved : |(snapValue g w - w) - (snapValue g v - v)| < g := by
    rw [abs_lt]
    constructor <;> linarith
  calc |v - w|
      = |(snapValue g v - snapValue g w) + ((snapValue g w - w) - (snapValue g v - v))| := by
        congr 1
        ring
    _ ≤ |snapValue g v - snapValue g w| + |(snapValue g w - w) - (snapValue g v - v)| :=
        abs_add_le _ _
    _ < |snapValue g v - snapValue g w| + g := by linarith

/-! ### Positions -/

theorem Position.snap_eq (hg : 0 < g) (p : Position ℚ) :
    p.snap g = ⟨snapValue g p.x, snapValue g p.y⟩ := if_neg (by simpa using hg)

theorem find?_snapAll (positions : NameMap (Position ℚ)) (g : ℚ) (x : String) :
    (snapAll positions g).find? x = (positions.find? x).map (·.snap g) :=
  NameMap.find?_map _ _ x

/-- Boxes apart from each other do not meet when they snap, if the spacing is a step at least. -/
theorem Apart.snap {c : Config ℚ} {p q : Position ℚ} (h : Apart c p q) (hg : 0 < g)
    (hhor : g ≤ c.horizontalSpacing) (hver : g ≤ c.verticalSpacing) :
    c.nodeWidth < |(p.snap g).x - (q.snap g).x| ∨ c.nodeHeight < |(p.snap g).y - (q.snap g).y| := by
  rw [Position.snap_eq hg, Position.snap_eq hg]
  rcases h with h | h
  · left
    have hx := abs_sub_lt_snapValue hg p.x q.x
    rw [Config.columnStep] at h
    linarith
  · right
    have hy := abs_sub_lt_snapValue hg p.y q.y
    rw [Config.rowStep] at h
    linarith

end ClassDiagram.Layout

namespace ClassDiagram.CommandLine

open Layout

theorem mem_names_positions (c : Config ℚ) (m : Model) (grid snap : Bool) (x : String) :
    x ∈ (positions c m grid snap).names ↔ x ∈ m.nodes := by
  have hplaced : x ∈ (if grid then Grid.positions c m.nodes
      else Cluster.positions c m.nodes m.relations).names ↔ x ∈ m.nodes := by
    cases grid
    · exact Cluster.mem_names_positions c m.nodes m.relations x
    · exact Grid.mem_names_positions c m.nodes x
  cases snap
  · exact hplaced
  · rwa [positions, if_pos rfl, snapAll, NameMap.names_map]

theorem apart_of_positions {c : Config ℚ} (hc : c.Nonneg) (m : Model) (grid : Bool) {x y : String}
    {p q : Position ℚ} (hne : x ≠ y) (hx : (positions c m grid false).find? x = some p)
    (hy : (positions c m grid false).find? y = some q) : Apart c p q := by
  cases grid
  · exact apart_of_find? (Cluster.stack_apart hc _ _) hne hx hy
  · exact apart_of_find? (Grid.cells_apart hc m.nodes.eraseDups) hne hx hy

/-- Snapped positions, of the cluster layout as of the grid layout, hold every class and interface
name once, and no two boxes meet, if there is room for one step of the grid between them. -/
theorem positions_disjoint (c : Config ℚ) (hwidth : 0 ≤ c.nodeWidth) (hheight : 0 ≤ c.nodeHeight)
    (hsnap : 0 < c.snapSize) (hhor : c.snapSize ≤ c.horizontalSpacing)
    (hver : c.snapSize ≤ c.verticalSpacing) (m : Model) (grid : Bool) :
    (positions c m grid true).names.Nodup ∧
    (∀ x, x ∈ (positions c m grid true).names ↔
      (∃ k ∈ m.classes, k.name = x) ∨ ∃ i ∈ m.interfaces, i.name = x) ∧
    ∀ x y p q, x ≠ y → (positions c m grid true).find? x = some p →
      (positions c m grid true).find? y = some q →
      c.nodeWidth < |p.x - q.x| ∨ c.nodeHeight < |p.y - q.y| := by
  have hc : c.Nonneg := ⟨hwidth, hheight, by linarith, by linarith⟩
  refine ⟨NameMap.nodup_names _, fun x => ?_, ?_⟩
  · simp [mem_names_positions, Model.nodes]
  · intro x y p q hne hx hy
    have hfind (x : String) : (positions c m grid true).find? x =
        ((positions c m grid false).find? x).map (·.snap c.snapSize) := find?_snapAll _ _ x
    rw [hfind] at hx hy
    obtain ⟨p, hp, rfl⟩ := Option.map_eq_some_iff.1 hx
    obtain ⟨q, hq, rfl⟩ := Option.map_eq_some_iff.1 hy
    exact (apart_of_positions hc m grid hne hp hq).snap hsnap hhor hver

/-- Boxes of broken sizes with room for one step between them. -/
def narrow : Config ℚ where
  nodeWidth := 7 / 2
  nodeHeight := 5 / 3
  horizontalSpacing := 1
  verticalSpacing := 1
  padding := -1 / 3
  gridColumns := 0
  snapSize := 1

/-- Two related classes, one of them declared twice, and an interface apart from them. -/
def trio : Model where
  classes := [⟨"A", "A", none, [], []⟩, ⟨"B", "B", none, [], []⟩, ⟨"A", "A", none, [], []⟩]
  interfaces := [⟨"I", none, []⟩]
  enums := []
  relations := [⟨"B", "A", .composition⟩]
  packages := []

theorem positions_disjoint_narrow :
    0 ≤ narrow.nodeWidth ∧ 0 ≤ narrow.nodeHeight ∧ 0 < narrow.snapSize ∧
    narrow.snapSize ≤ narrow.horizontalSpacing ∧ narrow.snapSize ≤ narrow.verticalSpacing ∧
    "A" ≠ "I" ∧ ∀ grid, ∃ p q, (positions narrow trio grid true).find? "A" = some p ∧
      (positions narrow trio grid true).find? "I" = some q ∧
      (narrow.nodeWidth < |p.x - q.x| ∨ narrow.nodeHeight < |p.y - q.y|) := by
  have hwidth : 0 ≤ narrow.nodeWidth := by norm_num [narrow]
  have hheight : 0 ≤ narrow.nodeHeight := by norm_num [narrow]
  have hsnap : 0 < narrow.snapSize := by decide
  have hhor : narrow.snapSize ≤ narrow.horizontalSpacing := by decide
  have hver : narrow.snapSize ≤ narrow.verticalSpacing := by decide
  have hne : "A" ≠ "I" := by decide
  refine ⟨hwidth, hheight, hsnap, hhor, hver, hne, fun grid => ?_⟩
  obtain ⟨-, hkeys, hapart⟩ :=
    positions_disjoint narrow hwidth hheight hsnap hhor hver trio grid
  have hplace {x : String} (hx : (∃ k ∈ trio.classes, k.name = x) ∨
      ∃ i ∈ trio.interfaces, i.name = x) :
      ∃ p, (positions narrow trio grid true).find? x = some p :=
    Option.isSome_iff_exists.1 ((NameMap.mem_names_iff _ x).1 ((hkeys x).2 hx))
  obtain ⟨p, hp⟩ := hplace (x := "A") (by decide)
  obtain ⟨q, hq⟩ := hplace (x := "I") (by decide)
  exact ⟨p, q, hp, hq, hapart "A" "I" p q hne hp hq⟩

end ClassDiagram.CommandLine
