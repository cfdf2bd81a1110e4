import Clearance.Proofs.Field.Plan

/-!
# Fields of boxes, spheres and cylinders

The distance field of placed boxes, spheres and cylinders, in exact arithmetic: its sign is that of
the solids, up to the size of a voxel.

* `DistanceField.IsFieldOf`, `DistanceField.exists_isFieldOf`: every field that is built measures
  the voxels that the solids cover.
* `IsFieldOf.exists_near`, `IsFieldOf.neg_of_deep`: what the sign says about the solids, and they
  about the sign.
* `DistanceField.ofShapes_sign`: both for every field that is built.
-/

namespace Clearance

/-! ## Solids -/

/-- The shapes of a list at the poses of another. -/
theorem PlacedShape.mem_zipWith {α : Type} {shapes : List (Shape α)} {ps : List (Pose α)}
    {s : PlacedShape α} (h : s ∈ List.zipWith PlacedShape.mk shapes ps) :
    s.shape ∈ shapes ∧ s.pose ∈ ps := by
  induction shapes generalizing ps with
  | nil => exact absurd h List.not_mem_nil
  | cons t shapes ih =>
    cases ps with
    | nil => exact absurd h List.not_mem_nil
    | cons p ps =>
      rw [List.zipWith_cons_cons, List.mem_cons] at h
      rcases h with rfl | h
      · exact ⟨List.mem_cons_self, List.mem_cons_self⟩
      · exact ⟨List.mem_cons_of_mem _ (ih h).1, List.mem_cons_of_mem _ (ih h).2⟩

/-- Boxes, spheres and cylinders at rigid poses. -/
def AreSolid (shapes : List (PlacedShape ℝ)) : Prop :=
  ∀ s ∈ shapes, s.shape.IsPrimitive ∧ s.pose.IsRigid

theorem areSolid_zipWith {shapes : List (Shape ℝ)} {ps : List (Pose ℝ)}
    (hshapes : ∀ s ∈ shapes, s.IsPrimitive) (hrigid : ∀ q ∈ ps, q.IsRigid) :
    AreSolid (List.zipWith PlacedShape.mk shapes ps) := by
  intro s hs
  obtain ⟨hshape, hpose⟩ := PlacedShape.mem_zipWith hs
  exact ⟨hshapes _ hshape, hrigid _ hpose⟩

namespace DistanceField

/-- The field of placed solids: it measures the voxels whose centre a solid covers, and its box
    holds the solids. -/
structure IsFieldOf (f : DistanceField ℝ) (shapes : List (PlacedShape ℝ)) (g : Grid Bool) :
    Prop where
  measures : Measures f g
  holds_iff : ∀ c, g.Within c → (g.Holds c ↔ ∃ s ∈ shapes, s.Covers (f.centerOf c))
  inBox : ∀ s ∈ shapes, ∀ p, s.Covers p → InBox f p

section Plan

variable {plan : FieldPlan ℝ} {g : Grid Bool} {n : ℕ} {f : DistanceField ℝ} {b : Vec3 ℝ × Vec3 ℝ}

/-- No voxel of the outer layer is marked if the grid surrounds the shapes. -/
theorem not_holds_of_isOuter (hm : plan.marked = .ok (g, n))
    (hin : ∀ s ∈ plan.shapes, ∀ p, s.Covers p → InBounds b p) (hl : plan.layout.Surrounds b.1 b.2)
    {c : Vec3 ℕ} (hc : g.Within c) (ho : IsOuter g c) : ¬ g.Holds c := by
  obtain ⟨⟨hdx, hdy, hdz⟩, -, ⟨hnx, hny, hnz⟩, -, hholds⟩ := FieldPlan.marked_eq_ok hm
  intro hh
  obtain ⟨s, hs, hcov⟩ := (hholds c hc).mp hh
  obtain ⟨hlo, hhi⟩ := hin s hs _ hcov
  rcases ho with hx | hx | hy | hy | hz
  · exact FieldPlan.not_outer hdx hl.x hlo.x hhi.x (.inl hx)
  · exact FieldPlan.not_outer hdx hl.x hlo.x hhi.x (.inr (hx.trans hnx))
  · exact FieldPlan.not_outer hdy hl.y hlo.y hhi.y (.inl hy)
  · exact FieldPlan.not_outer hdy hl.y hlo.y hhi.y (.inr (hy.trans hny))
  · exact FieldPlan.not_outer hdz hl.z hlo.z hhi.z (hz.imp id fun e => e.trans hnz)

/-- What the grid of a plan surrounds lies in the box of its field. -/
theorem inBox_of_surrounds (hm : plan.marked = .ok (g, n)) (hf : plan.field g = .ok f)
    (hl : plan.layout.Surrounds b.1 b.2) {p : Vec3 ℝ} (hp : InBounds b p) : InBox f p := by
  obtain ⟨⟨hdx, hdy, hdz⟩, -, ⟨hnx, hny, hnz⟩, -⟩ := FieldPlan.marked_eq_ok hm
  obtain ⟨horigin, hres, hdata, -⟩ := FieldPlan.ofData_eq_ok hf
  obtain ⟨hlo, hhi⟩ := hp
  have hup : f.upper = center plan.layout.origin plan.layout.resolution (g.nx - 1) (g.ny - 1)
      (g.nz - 1) := by
    rw [upper, horigin, hres, hdata]
    rfl
  constructor
  · exact horigin ▸ hl.x.before.le.trans hlo.x
  · exact horigin ▸ hl.y.before.le.trans hlo.y
  · exact horigin ▸ hl.z.before.le.trans hlo.z
  · rw [hup, hnx]
    exact hhi.x.trans (FieldPlan.le_coord_last hdx hl.x)
  · rw [hup, hny]
    exact hhi.y.trans (FieldPlan.le_coord_last hdy hl.y)
  · rw [hup, hnz]
    exact hhi.z.trans (FieldPlan.le_coord_last hdz hl.z)

/-- The field of a plan whose grid surrounds its shapes. -/
theorem isFieldOf_plan (hm : plan.marked = .ok (g, n)) (hf : plan.field g = .ok f)
    (hin : ∀ s ∈ plan.shapes, ∀ p, s.Covers p → InBounds b p)
    (hl : 0 < plan.layout.resolution → plan.layout.Surrounds b.1 b.2) :
    IsFieldOf f plan.shapes g := by
  obtain ⟨-, -, -, hocc, hholds⟩ := FieldPlan.marked_eq_ok hm
  obtain ⟨horigin, hres, hdata, hpos, h2x, h2y, h2z⟩ := FieldPlan.ofData_eq_ok hf
  have hcells : HasCells f := ⟨hres ▸ hpos, hdata ▸ h2x, hdata ▸ h2y, hdata ▸ h2z⟩
  have hsigned : f.data = DistanceTransform.signed g f.resolution := by rw [hdata, hres]
  refine ⟨⟨hcells, hsigned, hocc, fun c => not_holds_of_isOuter hm hin (hl hpos)⟩, ?_, ?_⟩
  · intro c hc
    rw [centerOf, horigin, hres]
    exact hholds c hc
  · intro s hs p hp
    exact inBox_of_surrounds hm hf (hl hpos) (hin s hs p hp)

end Plan

variable {settings : Settings ℝ} {shapes : List (Shape ℝ)} {poses : Option (List (PoseSource ℝ))}
  {params : GridParams ℝ} {f : DistanceField ℝ} {ps : List (Pose ℝ)}

/-- What the field of sources is made of. -/
theorem ofShapes_eq_ok {sources : List (ShapeSource ℝ)} :
    (ofShapes settings sources poses params).1 = .ok f ↔
    ∃ plan, FieldPlan.make settings sources poses params = .ok plan ∧
      ∃ g n, plan.marked = .ok (g, n) ∧ plan.field g = .ok f := by
  constructor
  · intro h
    unfold ofShapes at h
    cases hplan : FieldPlan.make settings sources poses params with
    | error e => rw [hplan] at h; cases h
    | ok plan =>
      rw [hplan] at h
      dsimp only at h
      cases hm : plan.marked with
      | error e => rw [hm] at h; cases h
      | ok got =>
        rw [hm] at h
        exact ⟨plan, rfl, got.1, got.2, hm, h⟩
  · rintro ⟨plan, hplan, g, n, hm, hf⟩
    rw [ofShapes, hplan]
    dsimp only
    rw [hm]
    exact hf

/-- A field that is built has checked poses. -/
theorem exists_alignPoses (h : (ofShapes settings (shapes.map .shape) poses params).1 = .ok f) :
    ∃ ps, FieldPlan.alignPoses shapes.length poses = .ok ps := by
  obtain ⟨plan, hplan, -⟩ := ofShapes_eq_ok.mp h
  obtain ⟨-, ps, -, -, hps, -⟩ := FieldPlan.make_eq_ok.mp hplan
  exact ⟨ps, hps⟩

/-- The field of a plan of boxes, spheres and cylinders at rigid poses measures the voxels they
    cover. -/
theorem isFieldOf_make {plan : FieldPlan ℝ} {g : Grid Bool} {n : ℕ}
    (hplan : FieldPlan.make settings (shapes.map .shape) poses params = .ok plan)
    (hmarked : plan.marked = .ok (g, n)) (hfield : plan.field g = .ok f)
    (hps : FieldPlan.alignPoses shapes.length poses = .ok ps)
    (hs : AreSolid (List.zipWith PlacedShape.mk shapes ps)) :
    IsFieldOf f (List.zipWith PlacedShape.mk shapes ps) g := by
  obtain ⟨-, ps', r, boxes, hps', -, -, hplaced, hboxes, hlayout, hcut⟩ :=
    FieldPlan.make_eq_ok.mp hplan
  obtain rfl : ps = ps' := Except.ok.inj (hps.symm.trans hps')
  refine hplaced ▸ isFieldOf_plan (b := FieldPlan.hull boxes) hmarked hfield
    (fun s hs' p hp => ?_) fun hpos => ?_
  · obtain ⟨b, hb, e⟩ := exists_of_mapM hboxes hs'
    obtain ⟨hprim, hrigid⟩ := hs s (hplaced ▸ hs')
    exact FieldPlan.inBounds_hull hb (PlacedShape.inBounds_of_covers hprim hrigid hp e)
  · obtain ⟨hdims, hno, -⟩ := FieldPlan.marked_eq_ok hmarked
    refine Layout.ofBounds_surrounds hlayout (fun hsome bound hb => ?_) hpos hdims.1
    rw [hcut, hsome, Bool.true_and] at hno
    exact FieldPlan.eq_intCast_of_not_isFraction hno hb

/-- Every field of boxes, spheres and cylinders at rigid poses measures the voxels they cover. -/
theorem exists_isFieldOf (h : (ofShapes settings (shapes.map .shape) poses params).1 = .ok f)
    (hps : FieldPlan.alignPoses shapes.length poses = .ok ps)
    (hs : AreSolid (List.zipWith PlacedShape.mk shapes ps)) :
    ∃ g, IsFieldOf f (List.zipWith PlacedShape.mk shapes ps) g := by
  obtain ⟨plan, hplan, g, n, hmarked, hfield⟩ := ofShapes_eq_ok.mp h
  exact ⟨g, isFieldOf_make hplan hmarked hfield hps hs⟩

/-- A plan has a field if the centre of some voxel is covered. -/
theorem exists_ofShapes {sources : List (ShapeSource ℝ)} {plan : FieldPlan ℝ} {c : Vec3 ℕ}
    (h : FieldPlan.make settings sources poses params = .ok plan)
    (hpos : 0 < plan.layout.resolution)
    (hdims : 2 ≤ plan.layout.dims.x ∧ 2 ≤ plan.layout.dims.y ∧ 2 ≤ plan.layout.dims.z)
    (hs : ∀ s ∈ plan.shapes, s.shape.IsPrimitive) (hcut : plan.cutToFraction = false)
    (hc : (c.x : ℤ) < plan.layout.dims.x ∧ (c.y : ℤ) < plan.layout.dims.y ∧
      (c.z : ℤ) < plan.layout.dims.z)
    (hcov : ∃ s ∈ plan.shapes, s.Covers (plan.centerOf c)) :
    ∃ f, (ofShapes settings sources poses params).1 = .ok f := by
  obtain ⟨g, n, hm⟩ := FieldPlan.exists_marked hdims hs hcut hc hcov
  obtain ⟨f, hf⟩ := FieldPlan.exists_field hm hpos
  exact ⟨f, ofShapes_eq_ok.mpr ⟨plan, h, g, n, hm, hf⟩⟩

namespace IsFieldOf

variable {placed : List (PlacedShape ℝ)} {g : Grid Bool} {p : Vec3 ℝ}

/-- Where the distance is not positive, a solid is within the size of a voxel. -/
theorem exists_near (h : IsFieldOf f placed g) (hs : AreSolid placed) (hp : (f.sample p).1 ≤ 0) :
    ∃ s ∈ placed, ∃ q ∈ s.solid, (p - q).norm ≤ f.resolution := by
  obtain ⟨c, hc, hle⟩ := h.measures.exists_near_of_nonpos hp
  obtain ⟨s, hmem, hcov⟩ := (h.holds_iff c hc.1).mp hc
  have hsolid := (PlacedShape.covers_iff (hs s hmem).1 (hs s hmem).2).mp hcov
  exact ⟨s, hmem, f.centerOf c, hsolid, (Vec3.norm_sub_comm _ _).trans_le hle⟩

/-- Deep inside of a solid, the distance is negative. -/
theorem neg_of_deep (h : IsFieldOf f placed g) (hs : AreSolid placed) {s : PlacedShape ℝ}
    (hmem : s ∈ placed) {d : ℝ} (hd : s.shape.signedDistances [s.pose.rowToLocal p] = .ok [d])
    (hdeep : d < -(√3 * f.resolution)) :
    (f.sample p).1 < 0 := by
  have hpos := h.measures.pos
  have around : ∀ q, (q - p).norm ≤ √3 * f.resolution → s.Covers q :=
    fun q hq => PlacedShape.covers_of_deep (hs s hmem).1 (hs s hmem).2 hd hdeep hq
  refine h.measures.neg_of_near (h.inBox s hmem p (around p ?_)) fun c hc hle => ?_
  · rw [Vec3.norm_sub_self]
    positivity
  · exact (h.holds_iff c hc).mpr ⟨s, hmem, around _ hle⟩

end IsFieldOf

/-! ## A cube -/

section Cube

open FieldPlan

/-- A cube around the origin. -/
noncomputable def cubeOf (edge : ℝ) : Shape ℝ := .box ⟨edge, edge, edge⟩

/-- A cube of eight units and the parameters of its grid: voxels of one unit and no margin. -/
noncomputable def cube : Shape ℝ := .box ⟨8, 8, 8⟩

noncomputable def cubeGrid : GridParams ℝ := ⟨some (.real 1), some (.real 0), none⟩

/-- The parameters of a grid around a cube with voxels of another size. -/
noncomputable def cubeGridAt (r : ℝ) : GridParams ℝ := ⟨some (.real r), some (.real 0), none⟩

theorem isBox_cubeOf (edge : ℝ) : ∀ s ∈ [PlacedShape.mk (cubeOf edge) .origin], ∃ extents, s.shape = .box extents := by
  intro s hs
  obtain rfl := List.mem_singleton.mp hs
  exact ⟨_, rfl⟩

theorem isBox_cube : ∀ s ∈ [PlacedShape.mk cube .origin], ∃ extents, s.shape = .box extents := isBox_cubeOf 8

section Edge

variable {edge : ℝ}

theorem covers_cubeOf {p : Vec3 ℝ} : (PlacedShape.mk (cubeOf edge) .origin).Covers p ↔
    |p.x| ≤ edge / 2 ∧ |p.y| ≤ edge / 2 ∧ |p.z| ≤ edge / 2 := by
  have hcovers : (PlacedShape.mk (cubeOf edge) .origin).Covers p ↔ Box.contains ⟨edge, edge, edge⟩ p = true := by
    rw [PlacedShape.Covers, Pose.rowToLocal_origin]
    constructor
    · rintro ⟨test, htest, hp⟩
      exact Except.ok.inj htest ▸ hp
    · exact fun hp => ⟨_, rfl, hp⟩
  rw [hcovers, Box.contains_iff]

theorem checkVolume_cubeOf (hedge : 0 < edge) : checkVolume (cubeOf edge) = .ok ⟨⟩ := by
  have h : (cubeOf edge).isDegenerate = .ok false := by
    have hvolume : 0 < edge * edge * edge := by positivity
    simp [cubeOf, Shape.isDegenerate, Shape.volume, Box.volume, Vec3.any, Except.map, hedge.not_ge, hvolume]
  rw [checkVolume, h]
  rfl

theorem boundsAt_cubeOf (hedge : 0 ≤ edge) : (cubeOf edge).boundsAt .origin =
    .ok (⟨-(edge / 2), -(edge / 2), -(edge / 2)⟩, ⟨edge / 2, edge / 2, edge / 2⟩) := by
  have hle : -(edge / 2) ≤ edge / 2 := by linarith
  simp [cubeOf, Shape.boundsAt, Shape.bounds, Box.bounds, Box.half_eq, Primitive.corners,
    Vec3.minimum, Vec3.maximum, Vec3.min_eq, Vec3.max_eq, hle]

end Edge

theorem covers_cube {p : Vec3 ℝ} :
    (PlacedShape.mk cube .origin).Covers p ↔ |p.x| ≤ 4 ∧ |p.y| ≤ 4 ∧ |p.z| ≤ 4 := by
  rw [show cube = cubeOf 8 from rfl, covers_cubeOf]
  norm_num

/-- The plan of the field of a cube at the origin, with so many voxels of a size along each axis. -/
noncomputable def cubePlanAt (edge r : ℝ) (n : ℤ) : FieldPlan ℝ :=
  ⟨[⟨cubeOf edge, .origin⟩],
    ⟨⟨-(edge / 2) - r / 2, -(edge / 2) - r / 2, -(edge / 2) - r / 2⟩, r, ⟨n, n, n⟩⟩, none, false⟩

theorem isPrimitive_cubePlanAt {edge r : ℝ} {n : ℤ} : ∀ s ∈ (cubePlanAt edge r n).shapes, s.shape.IsPrimitive := by
  intro s hs
  obtain rfl := List.mem_singleton.mp hs
  trivial

section Sized

variable {edge r : ℝ} {n : ℤ} (hn : Layout.voxelCount r edge = n)

include hn

theorem ofBounds_cubeOf (hle : n ≤ 128) :
    Layout.ofBounds (⟨-(edge / 2), -(edge / 2), -(edge / 2)⟩ : Vec3 ℝ) ⟨edge / 2, edge / 2, edge / 2⟩ (.real r)
      (some (.real 0)) (some (.int 128)) = .ok ((cubePlanAt edge r n).layout, none) := by
  have hm : Layout.Margin.ofPadding (some (.real (0:ℝ))) = .ok (.length 0) := by
    refine bind_eq_ok.mpr ⟨0, rfl, check_eq_ok.mpr ⟨by simp, rfl⟩⟩
  have h128 : (Given.int 128 : Given ℝ).compare? = .ok 128 := by
    show Given.ofIntScalar 128 = _
    rw [Given.ofIntScalar, if_pos Exact.isFinite_eq]
    simp
  have hc : Layout.voxelCounts
      ((⟨edge / 2, edge / 2, edge / 2⟩ : Vec3 ℝ) - ⟨-(edge / 2), -(edge / 2), -(edge / 2)⟩)
      ((Layout.Margin.length 0).at r) r = ⟨n, n, n⟩ := by
    simp only [Layout.voxelCounts, Vec3.sub_def, Vec3.map, Layout.Margin.at]
    norm_num [hn]
  refine bind_eq_ok.mpr ⟨r, rfl,
    bind_eq_ok.mpr ⟨_, hm, bind_eq_ok.mpr ⟨128, Fault.lift_eq_ok.mpr h128, ?_⟩⟩⟩
  rw [hc]
  rw [if_pos]
  · simp only [Layout.place, Vec3.map, Layout.Margin.at, Exact.ofScientific_eq, cubePlanAt]
    norm_num
    rw [one_div_mul_eq_div]
    rfl
  · simp only [Vec3.any, Layout.exceeds, Bool.or_self, Bool.not_eq_true', ← Bool.not_eq_true,
      Exact.lt_iff, Exact.ofInt_eq]
    exact not_lt.mpr (by exact_mod_cast hle)

theorem make_cubeOf (hedge : 0 < edge) (hposes : alignPoses 1 poses = .ok [Pose.origin]) (hr : 0 < r)
    (hle : n ≤ 128) :
    make .standard [.shape (cubeOf edge)] poses (cubeGridAt r) = .ok (cubePlanAt edge r n) := by
  have hne : [cubeOf edge] ≠ [] := List.cons_ne_nil _ _
  have hres : checkedResolution .standard (cubeGridAt r).resolution = .ok r :=
    bind_eq_ok.mpr ⟨r, rfl, if_pos (by simpa using hr)⟩
  have hvolume : [cubeOf edge].forM checkVolume = .ok ⟨⟩ :=
    bind_eq_ok.mpr ⟨⟨⟩, checkVolume_cubeOf hedge, rfl⟩
  have hboxes : (cubePlanAt edge r n).shapes.mapM (fun p => p.shape.boundsAt p.pose) =
      .ok [(⟨-(edge / 2), -(edge / 2), -(edge / 2)⟩, ⟨edge / 2, edge / 2, edge / 2⟩)] :=
    mapM_eq_ok.mpr (.cons (boundsAt_cubeOf hedge.le) .nil)
  exact make_eq_ok.mpr ⟨hne, [.origin], r, _, hposes, hres, hvolume, rfl, hboxes,
    ofBounds_cubeOf hn hle, rfl⟩

/-- A cube at the origin has a field with voxels of a size that is not too large, and it is that of
    its plan. -/
theorem exists_cubeAt (hedge : 0 < edge) (hposes : alignPoses 1 poses = .ok [Pose.origin]) (hr : 0 < r)
    (hr' : r ≤ 2 * edge) (hdims : 2 ≤ n ∧ n ≤ 128) :
    ∃ f g k, (ofShapes .standard [.shape (cubeOf edge)] poses (cubeGridAt r)).1 = .ok f ∧
      (cubePlanAt edge r n).marked = .ok (g, k) ∧ (cubePlanAt edge r n).field g = .ok f := by
  have hcov : ∃ s ∈ (cubePlanAt edge r n).shapes, s.Covers ((cubePlanAt edge r n).centerOf ⟨1, 1, 1⟩) := by
    refine ⟨⟨cubeOf edge, .origin⟩, List.mem_singleton_self _, covers_cubeOf.mpr ?_⟩
    simp only [FieldPlan.centerOf, center, cubePlanAt, coord_eq, abs_le]
    push_cast
    refine ⟨⟨?_, ?_⟩, ⟨?_, ?_⟩, ?_, ?_⟩ <;> linarith
  have hin : ((1 : ℕ) : ℤ) < n := by omega
  have hmake := make_cubeOf hn hedge hposes hr hdims.2
  obtain ⟨f, hf⟩ := exists_ofShapes hmake hr ⟨hdims.1, hdims.1, hdims.1⟩ isPrimitive_cubePlanAt rfl
    ⟨hin, hin, hin⟩ hcov
  obtain ⟨plan, hplan, g, k, hmarked, hfield⟩ := ofShapes_eq_ok.mp hf
  obtain rfl := Except.ok.inj (hmake.symm.trans hplan)
  exact ⟨f, g, k, hf, hmarked, hfield⟩

end Sized

/-- The cube at the origin has a field, whose voxels have the size that was asked for. -/
theorem exists_cube (hposes : alignPoses 1 poses = .ok [Pose.origin]) :
    ∃ f, (ofShapes .standard [.shape cube] poses cubeGrid).1 = .ok f ∧ f.resolution = 1 := by
  have hcount : Layout.voxelCount (1 : ℝ) 8 = 8 + 2 := Layout.voxelCount_of_whole (by norm_num)
  obtain ⟨f, g, k, hf, -, hfield⟩ :=
    exists_cubeAt hcount (by norm_num) hposes one_pos (by norm_num) (by decide)
  exact ⟨f, hf, (FieldPlan.ofData_eq_ok hfield).2.1⟩

/-- In the middle of the cube, the surface is four units away. -/
theorem signedDistances_cube : cube.signedDistances [⟨0, 0, 0⟩] = .ok [-4] := by
  simp [cube, Shape.signedDistances, Box.signedDistance, Box.half_eq, Vec3.abs, Vec3.map,
    Vec3.maxCoord]
  norm_num [Vec3.max_eq, Vec3.replicate, Vec3.norm, Vec3.dot]

end Cube

/-! ## The sign of a field -/

/-- The sign of a field that was built. Where its distance is not positive, some point of a placed
    solid is within the size of a voxel; and where a placed solid is deeper than the diagonal of a
    voxel, its distance is negative. -/
theorem ofShapes_sign (h : (ofShapes settings (shapes.map .shape) poses params).1 = .ok f)
    (hps : FieldPlan.alignPoses shapes.length poses = .ok ps)
    (hshapes : ∀ s ∈ shapes, s.IsPrimitive) (hrigid : ∀ q ∈ ps, q.IsRigid) (p : Vec3 ℝ) :
    ((f.sample p).1 ≤ 0 →
      ∃ s ∈ List.zipWith PlacedShape.mk shapes ps, ∃ q ∈ s.solid, (p - q).norm ≤ f.resolution) ∧
    ((∃ s ∈ List.zipWith PlacedShape.mk shapes ps, ∃ d,
        s.shape.signedDistances [s.pose.rowToLocal p] = .ok [d] ∧ d < -(√3 * f.resolution)) →
      (f.sample p).1 < 0) := by
  have hs := areSolid_zipWith hshapes hrigid
  obtain ⟨g, hg⟩ := exists_isFieldOf h hps hs
  constructor
  · exact hg.exists_near hs
  · rintro ⟨s, hmem, d, hd, hdeep⟩
    exact hg.neg_of_deep hs hmem hd hdeep

/-- The field of a cube of eight units with voxels of one unit is negative in the middle of the cube,
    and where it is not positive, a point of the cube is within one unit. -/
theorem ofShapes_sign_cube :
    ∃ f : DistanceField ℝ, (ofShapes .standard [.shape cube] none cubeGrid).1 = .ok f ∧
      (f.sample ⟨0, 0, 0⟩).1 < 0 ∧
      ∀ p, (f.sample p).1 ≤ 0 → ∃ q ∈ (PlacedShape.mk cube .origin).solid, (p - q).norm ≤ 1 := by
  obtain ⟨f, hf, hres⟩ := exists_cube (show FieldPlan.alignPoses 1 none = .ok [Pose.origin] from rfl)
  have hshapes : ∀ s ∈ [cube], s.IsPrimitive := by
    intro s hs
    obtain rfl := List.mem_singleton.mp hs
    trivial
  have hrigid : ∀ q ∈ [(Pose.origin : Pose ℝ)], q.IsRigid := by
    intro q hq
    obtain rfl := List.mem_singleton.mp hq
    exact Pose.isRigid_origin
  have hf' : (ofShapes .standard ([cube].map .shape) none cubeGrid).1 = .ok f := hf
  refine ⟨f, hf, (ofShapes_sign hf' rfl hshapes hrigid _).2 ?_, fun p hp => ?_⟩
  · refine ⟨⟨cube, .origin⟩, List.mem_singleton_self _, -4, ?_, ?_⟩
    · rw [Pose.rowToLocal_origin]
      exact signedDistances_cube
    · rw [hres]
      nlinarith [Real.sq_sqrt (show (0 : ℝ) ≤ 3 by norm_num), Real.sqrt_nonneg 3]
  · obtain ⟨s, hs, q, hq, hle⟩ := (ofShapes_sign hf' rfl hshapes hrigid p).1 hp
    obtain rfl := List.mem_singleton.mp hs
    exact ⟨q, hq, hres ▸ hle⟩

end DistanceField

end Clearance
