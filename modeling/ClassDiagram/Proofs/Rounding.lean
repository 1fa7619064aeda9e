import ClassDiagram.Proofs.Snap

/-! Snapping is rounding. The nearest line of a grid is the only one of its lines less than half a
step below a value and at most half a step above it; all that snapping keeps follows from this. -/

namespace ClassDiagram.Layout

variable {g v w s t : ℚ}

/-! ### Lines of a grid -/

/-- The line of a grid that is nearest to a value; halfway between two lines, the upper one. -/
structure NearestLine (g v s : ℚ) : Prop where
  line : ∃ n : ℤ, s = n * g
  lower : -(g / 2) < s - v
  upper : s - v ≤ g / 2

/-- A line that is less than a step above another one is not above it. -/
theorem line_le_of_sub_lt (hg : 0 < g) {m n : ℤ} (h : m * g - n * g < g) :
    (m : ℚ) * g ≤ n * g := by
  have hsteps : ((m : ℚ) - n) * g < 1 * g := by linarith
  have hlt : (m : ℚ) < n + 1 := by linarith [lt_of_mul_lt_mul_right hsteps hg.le]
  have hle : m ≤ n := Int.lt_add_one_iff.1 (by exact_mod_cast hlt)
  exact mul_le_mul_of_nonneg_right (by exact_mod_cast hle) hg.le

/-- A greater value has its nearest line above or at the same place. -/
theorem NearestLine.mono (hg : 0 < g) (hs : NearestLine g v s) (ht : NearestLine g w t)
    (h : v ≤ w) : s ≤ t := by
  obtain ⟨m, rfl⟩ := hs.line
  obtain ⟨n, rfl⟩ := ht.line
  have hv := hs.upper
  have hw := ht.lower
  exact line_le_of_sub_lt hg (by linarith)

theorem NearestLine.unique (hg : 0 < g) (hs : NearestLine g v s) (ht : NearestLine g v t) :
    s = t :=
  le_antisymm (hs.mono hg ht le_rfl) (ht.mono hg hs le_rfl)

theorem nearestLine_line (hg : 0 < g) (n : ℤ) : NearestLine g (n * g) (n * g) :=
  ⟨⟨n, rfl⟩, by linarith, by linarith⟩

/-- A shift by whole steps takes the nearest line along. -/
theorem NearestLine.shift (hs : NearestLine g v s) (n : ℤ) :
    NearestLine g (v + n * g) (s + n * g) := by
  obtain ⟨m, hm⟩ := hs.line
  have hlower := hs.lower
  have hupper := hs.upper
  refine ⟨⟨m + n, ?_⟩, by linarith, by linarith⟩
  rw [hm, Int.cast_add]
  ring

/-! ### Values -/

theorem nearestLine_snapValue (hg : 0 < g) (v : ℚ) : NearestLine g v (snapValue g v) := by
  obtain ⟨hlower, hupper⟩ := snapValue_sub hg v
  exact ⟨⟨_, snapValue_eq g v⟩, hlower, hupper⟩

theorem eq_snapValue_iff (hg : 0 < g) : s = snapValue g v ↔ NearestLine g v s := by
  constructor
  · rintro rfl
    exact nearestLine_snapValue hg v
  · intro hs
    exact hs.unique hg (nearestLine_snapValue hg v)

theorem snapValue_mono (hg : 0 < g) (h : v ≤ w) : snapValue g v ≤ snapValue g w :=
  (nearestLine_snapValue hg v).mono hg (nearestLine_snapValue hg w) h

theorem snapValue_line (hg : 0 < g) (n : ℤ) : snapValue g (n * g) = n * g :=
  ((eq_snapValue_iff hg).2 (nearestLine_line hg n)).symm

theorem snapValue_eq_self_iff (hg : 0 < g) : snapValue g v = v ↔ ∃ n : ℤ, v = n * g := by
  constructor
  · intro h
    have hline := (nearestLine_snapValue hg v).line
    rwa [h] at hline
  · rintro ⟨n, rfl⟩
    exact snapValue_line hg n

theorem snapValue_snapValue (hg : 0 < g) (v : ℚ) :
    snapValue g (snapValue g v) = snapValue g v :=
  (snapValue_eq_self_iff hg).2 (nearestLine_snapValue hg v).line

theorem snapValue_add_line (hg : 0 < g) (v : ℚ) (n : ℤ) :
    snapValue g (v + n * g) = snapValue g v + n * g :=
  ((eq_snapValue_iff hg).2 ((nearestLine_snapValue hg v).shift n)).symm

/-- What is not below zero stays there, since zero is a line. -/
theorem snapValue_nonneg (hg : 0 < g) (hv : 0 ≤ v) : 0 ≤ snapValue g v := by
  have hzero := snapValue_line hg 0
  rw [Int.cast_zero, zero_mul] at hzero
  rw [← hzero]
  exact snapValue_mono hg hv

/-! ### Positions -/

theorem Position.snap_of_nonpos (hg : g ≤ 0) (p : Position ℚ) : p.snap g = p :=
  if_pos (by simpa using hg)

theorem Position.snap_snap (p : Position ℚ) (g : ℚ) : (p.snap g).snap g = p.snap g := by
  rcases le_or_gt g 0 with hg | hg
  · rw [Position.snap_of_nonpos hg, Position.snap_of_nonpos hg]
  · rw [Position.snap_eq hg p, Position.snap_eq hg, snapValue_snapValue hg, snapValue_snapValue hg]

theorem snapAll_snapAll (positions : NameMap (Position ℚ)) (g : ℚ) :
    snapAll (snapAll positions g) g = snapAll positions g := by
  have hagain : (fun p : Position ℚ => p.snap g) ∘ (fun p : Position ℚ => p.snap g) =
      fun p => p.snap g := funext fun p => p.snap_snap g
  rw [snapAll, snapAll, NameMap.map_map, hagain]

/-- Each coordinate goes to its nearest line, of two to the upper one, and to no other. So snapping
keeps the order, leaves exactly the lines where they are, goes along with shifts by whole steps, and
changes nothing when it is done again. A grid that is not positive changes nothing at all. A map is
snapped entry by entry under its names. -/
theorem snap_nearest (g : ℚ) :
    (0 < g →
      (∀ (p : Position ℚ) (s : ℚ), (s = (p.snap g).x ↔ NearestLine g p.x s) ∧
        (s = (p.snap g).y ↔ NearestLine g p.y s)) ∧
      (∀ p q : Position ℚ, (p.x ≤ q.x → (p.snap g).x ≤ (q.snap g).x) ∧
        (p.y ≤ q.y → (p.snap g).y ≤ (q.snap g).y)) ∧
      (∀ p : Position ℚ, ((p.snap g).x = p.x ↔ ∃ n : ℤ, p.x = n * g) ∧
        ((p.snap g).y = p.y ↔ ∃ n : ℤ, p.y = n * g)) ∧
      ∀ (p : Position ℚ) (m n : ℤ), Position.snap ⟨p.x + m * g, p.y + n * g⟩ g =
        ⟨(p.snap g).x + m * g, (p.snap g).y + n * g⟩) ∧
    (g ≤ 0 → ∀ p : Position ℚ, p.snap g = p) ∧
    (∀ p : Position ℚ, (p.snap g).snap g = p.snap g) ∧
    ∀ positions : NameMap (Position ℚ), (snapAll positions g).names = positions.names ∧
      (∀ x, (snapAll positions g).find? x = (positions.find? x).map (·.snap g)) ∧
      snapAll (snapAll positions g) g = snapAll positions g := by
  refine ⟨fun hg => ?_, Position.snap_of_nonpos, fun p => p.snap_snap g, fun positions => ?_⟩
  · simp only [Position.snap_eq hg]
    refine ⟨fun p s => ⟨eq_snapValue_iff hg, eq_snapValue_iff hg⟩,
      fun p q => ⟨snapValue_mono hg, snapValue_mono hg⟩,
      fun p => ⟨snapValue_eq_self_iff hg, snapValue_eq_self_iff hg⟩, fun p m n => ?_⟩
    rw [snapValue_add_line hg, snapValue_add_line hg]
  · exact ⟨NameMap.names_map _ _, find?_snapAll positions g, snapAll_snapAll positions g⟩

/-- Halves go up, below zero as well, and the lines of a broken grid stay where they are. -/
theorem snap_nearest_halves :
    (0 : ℚ) < 2 / 3 ∧ 0 = (Position.snap ⟨-1 / 3, 7 / 3⟩ (2 / 3 : ℚ)).x ∧
      8 / 3 = (Position.snap ⟨-1 / 3, 7 / 3⟩ (2 / 3 : ℚ)).y ∧
      (Position.snap ⟨-4, 1⟩ (2 / 3 : ℚ)).x = -4 := by
  have hg : (0 : ℚ) < 2 / 3 := by norm_num
  have hx : NearestLine (2 / 3) (-1 / 3) 0 := ⟨⟨0, by norm_num⟩, by norm_num, by norm_num⟩
  have hy : NearestLine (2 / 3) (7 / 3) (8 / 3) := ⟨⟨4, by norm_num⟩, by norm_num, by norm_num⟩
  obtain ⟨hline, -, hfixed, -⟩ := (snap_nearest (2 / 3)).1 hg
  exact ⟨hg, (hline _ 0).1.2 hx, (hline _ _).2.2 hy, (hfixed ⟨-4, 1⟩).1.2 ⟨-6, by norm_num⟩⟩

end ClassDiagram.Layout
