import Clearance.Proofs.Field.Shapes

/-!
# Directions in a field

The direction of a vector has length one, but a vector that is too short to tell has the direction
zero. In the box of the voxel centres the direction of a field is that of a mean of the directions at
voxels, and these may cancel each other out: in the middle of a voxel that is marked alone there is
no direction.

* `DistanceField.norm_direction_of_lt`, `DistanceField.direction_of_not_lt`: the lengths of
  directions.
* `DistanceField.gradient_of_ofShapes`: the directions at the voxels of a field that was built.
* `DistanceField.gradientAt`, `DistanceField.sample_snd`: the vector whose direction a field has at a
  point.
* `DistanceField.IsLone`, `IsLone.interpolate_above`: the field of one marked voxel, on the way from
  its centre to the next one.
-/

namespace Clearance.DistanceField

/-! ## Lengths -/

section Lengths

variable {v : Vec3 ℝ}

theorem normSq_divide (v : Vec3 ℝ) (a : ℝ) : (v.divide a).normSq = v.normSq * (a ^ 2)⁻¹ := by
  simp only [Vec3.divide, Vec3.normSq]
  ring

theorem norm_divide_norm (h : 0 < v.norm) : (v.divide v.norm).norm = 1 := by
  have hsq : v.norm ^ 2 = v.normSq := by
    rw [Vec3.norm_eq, Real.sq_sqrt]
    unfold Vec3.normSq
    positivity
  rw [Vec3.norm_eq, normSq_divide, ← hsq, mul_inv_cancel₀ (pow_ne_zero 2 h.ne'), Real.sqrt_one]

theorem directionTolerance_pos : (0 : ℝ) < directionTolerance := by
  rw [directionTolerance, Exact.trillionth_eq]
  positivity

theorem directionTolerance_lt_one : directionTolerance < (1 : ℝ) := by
  rw [directionTolerance, Exact.trillionth_eq]
  norm_num

theorem direction_of_lt (h : directionTolerance < v.norm) : direction v = v.divide v.norm :=
  if_pos (Exact.lt_iff.mpr h)

/-- A vector that is longer than the tolerance has a direction of length one. -/
theorem norm_direction_of_lt (h : directionTolerance < v.norm) : (direction v).norm = 1 := by
  rw [direction_of_lt h, norm_divide_norm (directionTolerance_pos.trans h)]

/-- A vector that is not longer than the tolerance has no direction. -/
theorem direction_of_not_lt (h : ¬ directionTolerance < v.norm) : direction v = ⟨0, 0, 0⟩ := by
  rw [direction, if_neg (by simpa using h)]
  simp

theorem direction_zero : direction (⟨0, 0, 0⟩ : Vec3 ℝ) = ⟨0, 0, 0⟩ := by
  refine direction_of_not_lt ?_
  rw [Vec3.norm_onAxis, abs_zero]
  exact directionTolerance_pos.not_gt

/-- A vector of length one is its own direction. -/
theorem direction_of_norm_eq_one (h : v.norm = 1) : direction v = v := by
  rw [direction_of_lt (h ▸ directionTolerance_lt_one), h]
  simp [Vec3.divide]

/-- A direction has length one or zero, and is its own direction. -/
theorem direction_direction (v : Vec3 ℝ) : direction (direction v) = direction v := by
  by_cases h : directionTolerance < v.norm
  · exact direction_of_norm_eq_one (norm_direction_of_lt h)
  · rw [direction_of_not_lt h, direction_zero]

end Lengths

/-! ## Fields that were built -/

section Built

variable {settings : Settings ℝ} {sources : List (ShapeSource ℝ)} {poses : Option (List (PoseSource ℝ))}
  {params : GridParams ℝ} {f : DistanceField ℝ} {p : Vec3 ℝ}

/-- A field that was built has at its voxels the directions in which its distances grow. -/
theorem gradient_of_ofShapes (h : (ofShapes settings sources poses params).1 = .ok f) :
    f.gradient = fun i j k => direction (slopes f.data f.resolution i j k) := by
  obtain ⟨plan, -, g, n, -, hfield⟩ := ofShapes_eq_ok.mp h
  obtain ⟨_, -, hfield⟩ := bind_eq_ok.mp hfield
  obtain ⟨_, -, hfield⟩ := bind_eq_ok.mp hfield
  obtain ⟨_, -, hfield⟩ := bind_eq_ok.mp hfield
  obtain rfl := Except.ok.inj hfield
  rfl

/-- A copy of a field that was built is that field: its directions have length one or zero. -/
theorem copy_of_ofShapes (h : (ofShapes settings sources poses params).1 = .ok f) : f.copy = f := by
  have hgradient : (fun i j k => direction (f.gradient i j k)) = f.gradient := by
    rw [gradient_of_ofShapes h]
    simp only [direction_direction]
  rw [copy, hgradient]

/-- The vector whose direction a field has at a point: outside of the box of the voxel centres the one
    that leads away from it, and otherwise the mean of the directions at the corners of the cell. -/
noncomputable def gradientAt (f : DistanceField ℝ) (p : Vec3 ℝ) : Vec3 ℝ :=
  let inside := p.clip f.origin f.upper
  if 0 < (p - inside).norm then (p - inside).divide (p - inside).norm else (f.interpolate inside).2

theorem sample_snd (f : DistanceField ℝ) (p : Vec3 ℝ) : (f.sample p).2 = direction (f.gradientAt p) := by
  unfold sample gradientAt
  dsimp only
  by_cases h : 0 < (p - p.clip f.origin f.upper).norm
  · rw [if_pos h, if_pos (by simpa using h)]
  · rw [if_neg h, if_neg (by simpa using h)]

theorem gradientAt_of_inBox (hp : InBox f p) : f.gradientAt p = (f.interpolate p).2 := by
  unfold gradientAt
  dsimp only
  rw [clip_eq_self hp, Vec3.norm_sub_self, if_neg (lt_irrefl 0)]

end Built

/-! ## A voxel that is marked alone -/

section Slopes

variable {r : ℝ} {n i : ℕ} {values : ℕ → ℝ}

theorem slope_inner (hi : 0 < i) (hi' : i + 1 < n) :
    slope r n values i = (values (i + 1) - values (i - 1)) / (2 * r) := by
  rw [slope, if_neg hi.ne', if_neg hi'.ne]

theorem slope_last (hi : 0 < i) (hi' : i + 1 = n) : slope r n values i = (values i - values (i - 1)) / r := by
  rw [slope, if_neg hi.ne', if_pos hi']

end Slopes

/-- The field measures a grid in which one voxel is marked, and its directions are those in which the
    distances grow. -/
structure IsLone (f : DistanceField ℝ) (g : Grid Bool) (o : Vec3 ℕ) : Prop extends Measures f g where
  holds_iff : ∀ c, g.Holds c ↔ c = o
  gradient : f.gradient = fun i j k => direction (slopes f.data f.resolution i j k)

namespace IsLone

open DistanceTransform (gap gapSq)

variable {f : DistanceField ℝ} {g : Grid Bool} {o c : Vec3 ℕ} {t : ℝ} {k : ℕ}

/-- The voxel is not at the end of any axis. -/
theorem inner (h : IsLone f g o) :
    (0 < o.x ∧ o.x + 1 < g.nx) ∧ (0 < o.y ∧ o.y + 1 < g.ny) ∧ 0 < o.z ∧ o.z + 1 < g.nz := by
  have hholds := (h.holds_iff o).mpr rfl
  have hnot := mt (h.outer o hholds.1) (not_not.mpr hholds)
  obtain ⟨hx, hy, hz⟩ := hholds.1
  unfold IsOuter at hnot
  omega

/-- All distances are those to the centre of the voxel, less half a voxel. -/
theorem data_eq (h : IsLone f g o) (hc : g.Within c) :
    f.data.getD c.x c.y c.z 0 = (gap c o - 1 / 2) * f.resolution := by
  rw [h.data]
  by_cases hco : c = o
  · have hholds := (h.holds_iff c).mpr hco
    obtain ⟨b, hb, hfree, hleast, e⟩ :=
      DistanceTransform.signed_of_holds (r := f.resolution) h.exists_free hholds
    have hone : gap c b = 1 := by
      refine le_antisymm ?_ (DistanceTransform.one_le_gap fun heq => hfree (heq ▸ hholds))
      obtain ⟨-, -, -, hz⟩ := h.inner
      have hnext : ¬ g.Holds ⟨o.x, o.y, o.z + 1⟩ := by
        rw [h.holds_iff, Vec3.ext_iff]
        simp
      have hgap : gap c ⟨o.x, o.y, o.z + 1⟩ = 1 := by
        simp [gap, gapSq, hco, Nat.dist]
      exact (hleast _ ⟨hco ▸ hc.1, hco ▸ hc.2.1, hz⟩ hnext).trans_eq hgap
    have hself : gap c o = 0 := by simp [gap, gapSq, hco]
    rw [e, hone, hself]
    ring
  · obtain ⟨b, hb, -, e⟩ := DistanceTransform.signed_of_not_holds (r := f.resolution) h.occupied hc
      (mt (h.holds_iff c).mp hco)
    rw [e, (h.holds_iff b).mp hb]

theorem data_onLine (h : IsLone f g o) (hk : k < g.nz) :
    f.data.getD o.x o.y k 0 = (Nat.dist k o.z - 1 / 2) * f.resolution := by
  have hholds := (h.holds_iff o).mpr rfl
  have hgap : gap ⟨o.x, o.y, k⟩ o = Nat.dist k o.z := by
    simp [gap, gapSq]
  rw [h.data_eq (c := ⟨o.x, o.y, k⟩) ⟨hholds.1.1, hholds.1.2.1, hk⟩, hgap]

/-- Voxels on both sides of the line of the voxel along an axis are equally far from it. -/
theorem slopes_onLine (h : IsLone f g o) (hk : k < g.nz) : slopes f.data f.resolution o.x o.y k =
    ⟨0, 0, slope f.resolution f.data.nz (fun k' => f.data.getD o.x o.y k' 0) k⟩ := by
  obtain ⟨⟨hx, hx'⟩, ⟨hy, hy'⟩, -⟩ := h.inner
  have hnx : o.x < g.nx := Nat.lt_of_succ_lt hx'
  have hny : o.y < g.ny := Nat.lt_of_succ_lt hy'
  have hdims : f.data.nx = g.nx ∧ f.data.ny = g.ny := by
    rw [h.data]
    exact ⟨rfl, rfl⟩
  have sides : ∀ {i : ℕ}, 0 < i → Nat.dist (i + 1) i = 1 ∧ Nat.dist (i - 1) i = 1 := by
    intro i hi
    simp only [Nat.dist]
    omega
  have hxs : f.data.getD (o.x + 1) o.y k 0 = f.data.getD (o.x - 1) o.y k 0 := by
    have hgap : gap ⟨o.x + 1, o.y, k⟩ o = gap ⟨o.x - 1, o.y, k⟩ o := by
      simp [gap, gapSq, sides hx]
    rw [h.data_eq (c := ⟨o.x + 1, o.y, k⟩) ⟨hx', hny, hk⟩,
      h.data_eq (c := ⟨o.x - 1, o.y, k⟩) ⟨(Nat.sub_le _ _).trans_lt hnx, hny, hk⟩, hgap]
  have hys : f.data.getD o.x (o.y + 1) k 0 = f.data.getD o.x (o.y - 1) k 0 := by
    have hgap : gap ⟨o.x, o.y + 1, k⟩ o = gap ⟨o.x, o.y - 1, k⟩ o := by
      simp [gap, gapSq, sides hy]
    rw [h.data_eq (c := ⟨o.x, o.y + 1, k⟩) ⟨hnx, hy', hk⟩,
      h.data_eq (c := ⟨o.x, o.y - 1, k⟩) ⟨hnx, (Nat.sub_le _ _).trans_lt hny, hk⟩, hgap]
  simp only [slopes, Exact.zero_eq]
  rw [slope_inner hx (hdims.1 ▸ hx'), slope_inner hy (hdims.2 ▸ hy'), hxs, hys]
  simp

/-- In the voxel itself the slopes cancel out. -/
theorem gradient_self (h : IsLone f g o) : f.gradient o.x o.y o.z = ⟨0, 0, 0⟩ := by
  obtain ⟨-, -, hz, hz'⟩ := h.inner
  have hnz : f.data.nz = g.nz := by
    rw [h.data]
    rfl
  have hbelow : Nat.dist (o.z - 1) o.z = 1 := by
    simp only [Nat.dist]
    omega
  have hslope : slope f.resolution f.data.nz (fun k => f.data.getD o.x o.y k 0) o.z = 0 := by
    rw [slope_inner hz (hnz ▸ hz'), h.data_onLine hz', h.data_onLine (by omega), hbelow]
    simp [Nat.dist]
  simp only [h.gradient]
  rw [h.slopes_onLine (by omega), hslope, direction_zero]

/-- In the next voxel along the third axis the direction is that of the axis. -/
theorem gradient_above (h : IsLone f g o) : f.gradient o.x o.y (o.z + 1) = ⟨0, 0, 1⟩ := by
  obtain ⟨-, -, hz, hz'⟩ := h.inner
  have hnz : f.data.nz = g.nz := by
    rw [h.data]
    rfl
  have hpos := h.pos.ne'
  have hself : f.data.getD o.x o.y o.z 0 = -(1 / 2) * f.resolution := by
    rw [h.data_onLine (by omega), Nat.dist_self]
    norm_num
  have habove : f.data.getD o.x o.y (o.z + 1) 0 = 1 / 2 * f.resolution := by
    rw [h.data_onLine hz', show Nat.dist (o.z + 1) o.z = 1 by simp [Nat.dist]]
    norm_num
  have hslope : slope f.resolution f.data.nz (fun k => f.data.getD o.x o.y k 0) (o.z + 1) = 1 := by
    by_cases hlast : o.z + 1 + 1 = f.data.nz
    · rw [slope_last (Nat.add_pos_right _ one_pos) hlast, Nat.add_sub_cancel, habove, hself]
      field_simp
      norm_num
    · rw [slope_inner (Nat.add_pos_right _ one_pos) (by omega), Nat.add_sub_cancel, h.data_onLine (by omega), hself,
        show Nat.dist (o.z + 1 + 1) o.z = 2 by simp only [Nat.dist]; omega]
      field_simp
      norm_num
  simp only [h.gradient]
  rw [h.slopes_onLine hz', hslope]
  exact direction_of_norm_eq_one (by rw [Vec3.norm_onAxis, abs_one])

/-- On the way from the centre of the voxel to the next one along the third axis, the distance grows
    evenly, and so does the interpolated vector. -/
theorem interpolate_above (h : IsLone f g o) (ht : 0 ≤ t) (ht' : t < 1) {p : Vec3 ℝ}
    (hp : p = f.centerOf o + ⟨0, 0, t * f.resolution⟩) :
    InBox f p ∧ f.interpolate p = ((t - 1 / 2) * f.resolution, ⟨0, 0, t⟩) := by
  obtain ⟨⟨-, hx⟩, ⟨-, hy⟩, -, hz⟩ := h.inner
  have hdims : f.data.nx = g.nx ∧ f.data.ny = g.ny ∧ f.data.nz = g.nz := by
    rw [h.data]
    exact ⟨rfl, rfl, rfl⟩
  have hcell : InCell f p o ⟨0, 0, t⟩ := by
    rw [hp, centerOf, center]
    exact ⟨⟨hdims.1 ▸ hx, le_rfl, zero_le_one, by simp⟩, ⟨hdims.2.1 ▸ hy, le_rfl, zero_le_one, by simp⟩,
      ⟨hdims.2.2 ▸ hz, ht, ht'.le, by simp; ring⟩⟩
  obtain ⟨hc, hs⟩ := hcell.cellOf_eq h.toHasCells ⟨one_pos, one_pos, ht'⟩
  refine ⟨hcell.inBox h.toHasCells, Prod.ext ?_ ?_⟩
  · rw [interpolate_eq_mix, hc, hs]
    simp only [Corners.mix, cornerValue, corner, Bool.toNat_false, Bool.toNat_true, add_zero]
    rw [h.data_onLine hz, h.data_onLine (by omega), Nat.dist_self,
      show Nat.dist (o.z + 1) o.z = 1 by simp [Nat.dist]]
    norm_num
    ring
  · rw [interpolate_snd, hc, hs]
    simp [trilinearVec, h.gradient_self, h.gradient_above, Vec3.scale]

end IsLone

/-! ## A cube that is one voxel -/

section Cube

theorem areSolid_cube : AreSolid [⟨cube, .origin⟩] := by
  intro s hs
  obtain rfl := List.mem_singleton.mp hs
  exact ⟨trivial, Pose.isRigid_origin⟩

/-- Voxels as large as the cube: the one in the middle is marked alone. -/
theorem exists_lone_cube {poses : Option (List (PoseSource ℝ))}
    (hposes : FieldPlan.alignPoses 1 poses = .ok [Pose.origin]) :
    ∃ f g, (ofShapes .standard [.shape cube] poses (cubeGridAt 8)).1 = .ok f ∧ f.resolution = 8 ∧
      IsLone f g ⟨1, 1, 1⟩ ∧ f.centerOf ⟨1, 1, 1⟩ = ⟨0, 0, 0⟩ := by
  have hcount : Layout.voxelCount (8 : ℝ) 8 = 1 + 2 := Layout.voxelCount_of_whole (by norm_num)
  obtain ⟨f, g', k, hf, hmarked, hfield⟩ :=
    exists_cubeAt hcount (by norm_num) hposes (by norm_num) (by norm_num) (by decide)
  have hf' : (ofShapes .standard ([cube].map .shape) poses (cubeGridAt 8)).1 = .ok f := hf
  obtain ⟨g, hmeasures, hholds, -⟩ := exists_isFieldOf hf' hposes areSolid_cube
  obtain ⟨horigin, hres, hdata, -⟩ := FieldPlan.ofData_eq_ok hfield
  obtain ⟨-, -, ⟨hnx, hny, hnz⟩, -⟩ := FieldPlan.marked_eq_ok hmarked
  -- The centres along an axis are at minus eight, zero and eight.
  have hcenter : ∀ c, f.centerOf c = ⟨-8 + c.x * 8, -8 + c.y * 8, -8 + c.z * 8⟩ := by
    intro c
    rw [centerOf, horigin, hres]
    simp only [center, coord_eq, cubePlanAt]
    norm_num
  have hwithin : ∀ c, g.Within c ↔ c.x < 3 ∧ c.y < 3 ∧ c.z < 3 := by
    intro c
    rw [← hmeasures.within_iff, hdata, Grid.Within]
    show c.x < g'.nx ∧ c.y < g'.ny ∧ c.z < g'.nz ↔ _
    rw [hnx, hny, hnz]
    rfl
  have hcovers : ∀ c, (∃ s ∈ [PlacedShape.mk cube .origin], s.Covers (f.centerOf c)) ↔
      |-8 + (c.x : ℝ) * 8| ≤ 4 ∧ |-8 + (c.y : ℝ) * 8| ≤ 4 ∧ |-8 + (c.z : ℝ) * 8| ≤ 4 := by
    intro c
    simp only [List.mem_singleton, exists_eq_left]
    rw [covers_cube, hcenter]
  have hmiddle : ∀ i : ℕ, |-8 + (i : ℝ) * 8| ≤ 4 → i = 1 := by
    intro i hi
    obtain ⟨hlo, hhi⟩ := abs_le.mp hi
    have h0 : (0 : ℝ) < i := by linarith
    have h2 : (i : ℝ) < 2 := by linarith
    have h0' : 0 < i := by exact_mod_cast h0
    have h2' : i < 2 := by exact_mod_cast h2
    omega
  refine ⟨f, g, hf, hres, ⟨hmeasures, fun c => ?_, gradient_of_ofShapes hf⟩, ?_⟩
  · constructor
    · intro hc
      obtain ⟨hx, hy, hz⟩ := (hcovers c).mp ((hholds c hc.1).mp hc)
      exact Vec3.ext (hmiddle _ hx) (hmiddle _ hy) (hmiddle _ hz)
    · rintro rfl
      refine (hholds _ ((hwithin _).mpr (by decide))).mpr ((hcovers _).mpr ?_)
      norm_num
  · rw [hcenter]
    norm_num

end Cube

end Clearance.DistanceField
