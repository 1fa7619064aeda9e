import ClassDiagram.Layout.Canvas
import ClassDiagram.Proofs.Rounding
import Mathlib.Order.Bounds.Basic

/-! In exact arithmetic a canvas is just as large as its drawing needs. Each side ends the padding
behind the farthest box. The boxes of both layouts start behind the padding, and as zero is a line
of every grid, snapping takes none of them off the canvas. -/

namespace ClassDiagram.Layout

/-! ### Sides -/

/-- Whoever keeps the greater of two values all along ends with the greatest. -/
theorem isGreatest_foldl (m : ℚ) (values : List ℚ) :
    IsGreatest {v | v ∈ m :: values} (values.foldl (fun m v => if m < v then v else m) m) := by
  induction values generalizing m with
  | nil => exact ⟨List.mem_singleton_self m, fun v hv => (List.mem_singleton.1 hv).le⟩
  | cons w values ih =>
    -- The fold goes on from the greater of the two, which bounds them both.
    rw [List.foldl_cons, ← max_def_lt]
    obtain ⟨hmem, hbound⟩ := ih (max m w)
    have hlast := hbound List.mem_cons_self
    constructor
    · rcases List.mem_cons.1 hmem with heq | hmem
      · rw [heq]
        rcases max_choice m w with h | h <;> simp [h]
      · exact List.mem_cons_of_mem m (List.mem_cons_of_mem w hmem)
    · intro v hv
      rcases List.mem_cons.1 hv with rfl | hv
      · exact (le_max_left v w).trans hlast
      rcases List.mem_cons.1 hv with rfl | hv
      · exact (le_max_right m v).trans hlast
      · exact hbound (List.mem_cons_of_mem _ hv)

theorem isGreatest_farthest (values : List ℚ) :
    IsGreatest {v | v ∈ 0 :: values} (farthest values) := isGreatest_foldl 0 values

/-- A side of a canvas on which the boxes of some positions end at `far`. It ends the padding behind
the farthest box, or behind zero if no box ends beyond it. -/
structure Tight (positions : NameMap (Position ℚ)) (far : Position ℚ → ℚ) (padding side : ℚ) :
    Prop where
  far_le : ∀ p ∈ positions.values, far p + padding ≤ side
  padding_le : padding ≤ side
  attained : (∃ p ∈ positions.values, far p + padding = side) ∨ side = padding
  within : side = padding → ∀ p ∈ positions.values, far p ≤ 0

theorem tight_farthest (positions : NameMap (Position ℚ)) (far : Position ℚ → ℚ) (padding : ℚ) :
    Tight positions far padding (farthest (positions.values.map far) + padding) := by
  obtain ⟨hmem, hbound⟩ := isGreatest_farthest (positions.values.map far)
  have hfar : ∀ p ∈ positions.values, far p ≤ farthest (positions.values.map far) := fun p hp =>
    hbound (List.mem_cons_of_mem 0 (List.mem_map_of_mem hp))
  have hzero : 0 ≤ farthest (positions.values.map far) := hbound List.mem_cons_self
  refine ⟨fun p hp => by linarith [hfar p hp], by linarith, ?_, fun h p hp => ?_⟩
  · rcases List.mem_cons.1 hmem with h | h
    · exact .inr (by rw [h, zero_add])
    · obtain ⟨p, hp, hlast⟩ := List.mem_map.1 h
      exact .inl ⟨p, hp, by rw [hlast]⟩
  · linarith [hfar p hp]

theorem tight_width (positions : NameMap (Position ℚ)) (c : Config ℚ) :
    Tight positions (fun p => p.x + c.nodeWidth) c.padding (canvas positions c).width :=
  tight_farthest _ _ _

theorem tight_height (positions : NameMap (Position ℚ)) (c : Config ℚ) :
    Tight positions (fun p => p.y + c.nodeHeight) c.padding (canvas positions c).height :=
  tight_farthest _ _ _

/-! ### Layouts -/

variable {c : Config ℚ} {p : Position ℚ}

theorem Cluster.padding_le_stack (hc : c.Nonneg) {height : ℚ} {components : List (List String)}
    {e : String × Position ℚ} (he : e ∈ stack c height components) : c.padding ≤ e.2.x := by
  induction components generalizing height with
  | nil => cases he
  | cons names more ih =>
    rcases List.mem_append.1 he with he | he
    · obtain ⟨i, -, hcell⟩ := mem_block he
      rw [hcell]
      exact hc.padding_le_cell height _ _
    · exact ih he

theorem Cluster.padding_le (hc : c.Nonneg) {nodes : List String} {relations : List Relation}
    (hp : p ∈ (positions c nodes relations).values) : c.padding ≤ p.x ∧ c.padding ≤ p.y := by
  obtain ⟨e, he, rfl⟩ := List.mem_map.1 hp
  have hstack := NameMap.mem_of_mem_ofList he
  exact ⟨padding_le_stack hc hstack, le_stack hc hstack⟩

theorem Grid.padding_le (hc : c.Nonneg) {nodes : List String}
    (hp : p ∈ (positions c nodes).values) : c.padding ≤ p.x ∧ c.padding ≤ p.y := by
  obtain ⟨e, he, rfl⟩ := List.mem_map.1 hp
  obtain ⟨⟨name, i⟩, -, rfl⟩ := List.mem_map.1 (NameMap.mem_of_mem_ofList he)
  exact ⟨hc.padding_le_cell c.padding _ _, hc.le_cell c.padding _ _⟩

/-- A box that is on a canvas, with room for the padding at its far sides. -/
structure Inside (c : Config ℚ) (a : Canvas ℚ) (p : Position ℚ) : Prop where
  left : 0 ≤ p.x
  top : 0 ≤ p.y
  right : p.x + c.nodeWidth + c.padding ≤ a.width
  bottom : p.y + c.nodeHeight + c.padding ≤ a.height

/-- Boxes that do not start off the canvas do not do so when they are snapped. -/
theorem inside_snapAll {g : ℚ} (hg : 0 < g) {positions : NameMap (Position ℚ)}
    (h : ∀ p ∈ positions.values, 0 ≤ p.x ∧ 0 ≤ p.y) (hp : p ∈ (snapAll positions g).values) :
    Inside c (canvas (snapAll positions g) c) p := by
  have hfront : 0 ≤ p.x ∧ 0 ≤ p.y := by
    rw [snapAll, NameMap.values_map] at hp
    obtain ⟨q, hq, rfl⟩ := List.mem_map.1 hp
    rw [Position.snap_eq hg]
    exact ⟨snapValue_nonneg hg (h q hq).1, snapValue_nonneg hg (h q hq).2⟩
  exact ⟨hfront.1, hfront.2, (tight_width _ c).far_le p hp, (tight_height _ c).far_le p hp⟩

/-- Each side of a canvas ends the padding behind the farthest box, whatever the positions are. Both
layouts keep the padding on the near sides as well; no box of theirs leaves its canvas, be it
snapped to a grid or not. -/
theorem canvas_tight (c : Config ℚ) :
    (∀ positions : NameMap (Position ℚ),
      Tight positions (fun p => p.x + c.nodeWidth) c.padding (canvas positions c).width ∧
      Tight positions (fun p => p.y + c.nodeHeight) c.padding (canvas positions c).height) ∧
    (c.Nonneg → 0 ≤ c.padding → ∀ nodes relations positions,
      positions = Cluster.positions c nodes relations ∨ positions = Grid.positions c nodes →
      (∀ p ∈ positions.values, c.padding ≤ p.x ∧ c.padding ≤ p.y ∧
        Inside c (canvas positions c) p) ∧
      ∀ g, 0 < g → ∀ p ∈ (snapAll positions g).values,
        Inside c (canvas (snapAll positions g) c) p) := by
  refine ⟨fun positions => ⟨tight_width positions c, tight_height positions c⟩,
    fun hc hpadding nodes relations positions hlayout => ?_⟩
  have hnear : ∀ p ∈ positions.values, c.padding ≤ p.x ∧ c.padding ≤ p.y := by
    intro p hp
    rcases hlayout with rfl | rfl
    · exact Cluster.padding_le hc hp
    · exact Grid.padding_le hc hp
  have hfront : ∀ p ∈ positions.values, 0 ≤ p.x ∧ 0 ≤ p.y := fun p hp =>
    ⟨hpadding.trans (hnear p hp).1, hpadding.trans (hnear p hp).2⟩
  refine ⟨fun p hp => ⟨(hnear p hp).1, (hnear p hp).2, (hfront p hp).1, (hfront p hp).2,
    (tight_width positions c).far_le p hp, (tight_height positions c).far_le p hp⟩,
    fun g hg p hp => inside_snapAll hg hfront hp⟩

/-- A box that snaps to the right, with a step of forty, takes the canvas along. -/
theorem canvas_tight_fourNames :
    (Config.standard : Config ℚ).Nonneg ∧ 0 ≤ (Config.standard : Config ℚ).padding ∧ (0 : ℚ) < 40 ∧
      ⟨1120, 40⟩ ∈ (snapAll (Grid.positions Config.standard Cluster.fourNames) (40 : ℚ)).values ∧
      1420 ≤ (canvas (snapAll (Grid.positions Config.standard Cluster.fourNames) (40 : ℚ))
        Config.standard).width := by
  have hc : (Config.standard : Config ℚ).Nonneg := by constructor <;> decide
  have hpadding : 0 ≤ (Config.standard : Config ℚ).padding := by decide
  have hg : (0 : ℚ) < 40 := by decide
  have hlast : (⟨1120, 40⟩ : Position ℚ) ∈
      (snapAll (Grid.positions Config.standard Cluster.fourNames) (40 : ℚ)).values := by
    decide +kernel
  obtain ⟨-, hinside⟩ :=
    (canvas_tight Config.standard).2 hc hpadding Cluster.fourNames [] _ (.inr rfl)
  have hright := (hinside 40 hg _ hlast).right
  refine ⟨hc, hpadding, hg, hlast, le_trans ?_ hright⟩
  norm_num [Config.standard]

end ClassDiagram.Layout
