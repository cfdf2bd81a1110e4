import Mathlib.Order.Bounds.Basic
import Clearance.Proofs.Field.Shapes

/-!
# The border of a grid

The grid of a field of placed solids ends in free voxels on every side, so that the distances outside
of it grow from at least half a voxel.

* `DistanceField.isLeast_norm_sub_clip`: how far a point is from the box of the voxel centres.
* `Measures.half_add_le_sample`: the distance outside of the box.
* `DistanceField.ofShapes_border`: the outer layer of every grid that is marked is free, and every
  point outside has at least its distance to the grid and half a voxel.
-/

namespace Clearance.DistanceField

/-! ## The nearest point of the box -/

section Clip

variable {f : DistanceField ℝ} {p q : Vec3 ℝ}

theorem isOutOfBounds_eq_false_iff : f.isOutOfBounds p = false ↔ InBox f p := by
  rw [← Bool.not_eq_true, isOutOfBounds]
  simp only [Bool.or_eq_true, Exact.lt_iff, not_or, not_lt]
  constructor
  · rintro ⟨⟨⟨⟨⟨hx, hy⟩, hz⟩, hx'⟩, hy'⟩, hz'⟩
    exact ⟨hx, hy, hz, hx', hy', hz'⟩
  · rintro ⟨hx, hy, hz, hx', hy', hz'⟩
    exact ⟨⟨⟨⟨⟨hx, hy⟩, hz⟩, hx'⟩, hy'⟩, hz'⟩

/-- Along one axis, no coordinate of an interval is nearer than the end to which one is moved. -/
theorem sq_sub_clamp_le {x y lo hi : ℝ} (hlo : lo ≤ y) (hhi : y ≤ hi) :
    (x - min (max x lo) hi) ^ 2 ≤ (x - y) ^ 2 := by
  rcases lt_or_ge x lo with hbelow | hge
  · rw [max_eq_right hbelow.le, min_eq_left (hlo.trans hhi)]
    nlinarith
  · rcases lt_or_ge hi x with habove | hle
    · rw [max_eq_left hge, min_eq_right habove.le]
      nlinarith
    · rw [max_eq_left hge, min_eq_left hle, sub_self]
      nlinarith

theorem norm_sub_clip_le (p : Vec3 ℝ) (hq : InBox f q) :
    (p - p.clip f.origin f.upper).norm ≤ (p - q).norm := by
  have hx := sq_sub_clamp_le (x := p.x) hq.lowX hq.highX
  have hy := sq_sub_clamp_le (x := p.y) hq.lowY hq.highY
  have hz := sq_sub_clamp_le (x := p.z) hq.lowZ hq.highZ
  refine Vec3.norm_le_norm ?_
  rw [clip_def]
  simp only [Vec3.sub_def, Vec3.normSq]
  linarith

/-- A point is as far from the box as from the point of the box to which it is moved. -/
theorem isLeast_norm_sub_clip (hf : HasCells f) (p : Vec3 ℝ) :
    IsLeast {d | ∃ q, f.isOutOfBounds q = false ∧ (p - q).norm = d}
      (p - p.clip f.origin f.upper).norm := by
  constructor
  · exact ⟨_, isOutOfBounds_eq_false_iff.mpr (inBox_clip hf p), rfl⟩
  · rintro d ⟨q, hq, rfl⟩
    exact norm_sub_clip_le p (isOutOfBounds_eq_false_iff.mp hq)

end Clip

/-! ## Outside of the grid -/

namespace Measures

variable {f : DistanceField ℝ} {g : Grid Bool} {p : Vec3 ℝ}

/-- Outside of the box, the distance is at least the way to the box and half a voxel. -/
theorem half_add_le_sample (h : Measures f g) (hp : ¬ InBox f p) :
    f.resolution / 2 + (p - p.clip f.origin f.upper).norm ≤ (f.sample p).1 := by
  have hhalf := h.half_le_interpolate (inBox_clip h.toHasCells p) (clip_on_face h.toHasCells hp)
  rw [sample_fst]
  linarith

end Measures

/-! ## Fields of solids -/

section Border

variable {settings : Settings ℝ} {shapes : List (Shape ℝ)} {poses : Option (List (PoseSource ℝ))}
  {params : GridParams ℝ} {f : DistanceField ℝ} {ps : List (Pose ℝ)}

/-- The border of a field that was built of boxes, spheres and cylinders at rigid poses. Of the
    voxels of its grid, none of the outer layer is marked, so that some voxel is free; and a point
    outside of the grid has at least its distance to the grid and half a voxel. -/
theorem ofShapes_border (h : (ofShapes settings (shapes.map .shape) poses params).1 = .ok f)
    (hps : FieldPlan.alignPoses shapes.length poses = .ok ps)
    (hshapes : ∀ s ∈ shapes, s.IsPrimitive) (hrigid : ∀ q ∈ ps, q.IsRigid) :
    (∃ plan g n, FieldPlan.make settings (shapes.map .shape) poses params = .ok plan ∧
      plan.marked = .ok (g, n) ∧ plan.field g = .ok f ∧
      (∀ c, g.Within c → IsOuter g c →
        ¬ g.Holds c ∧ f.resolution / 2 ≤ f.data.getD c.x c.y c.z 0) ∧
      ∃ c, g.Within c ∧ ¬ g.Holds c) ∧
    ∀ p, f.isOutOfBounds p = true →
      ∃ d, IsLeast {t | ∃ q, f.isOutOfBounds q = false ∧ (p - q).norm = t} d ∧
        f.resolution / 2 + d ≤ (f.sample p).1 := by
  obtain ⟨plan, hplan, g, n, hmarked, hfield⟩ := ofShapes_eq_ok.mp h
  have hm := (isFieldOf_make hplan hmarked hfield hps (areSolid_zipWith hshapes hrigid)).measures
  refine ⟨⟨plan, g, n, hplan, hmarked, hfield, fun c hc ho => ?_, hm.exists_free⟩, fun p hp => ?_⟩
  · have hfree := hm.outer c hc ho
    refine ⟨hfree, ?_⟩
    rw [hm.data]
    exact DistanceTransform.signed_of_free hm.pos.le hm.occupied hc hfree
  · have hout : ¬ InBox f p := fun hin => by
      rw [isOutOfBounds_eq_false_iff.mpr hin] at hp
      cases hp
    exact ⟨_, isLeast_norm_sub_clip hm.toHasCells p, hm.half_add_le_sample hout⟩

/-- Around a cube of eight units, with voxels of one unit and no margin, some voxel is free, and a
    point far from the cube has at least its distance to the grid and half a unit. -/
theorem ofShapes_border_cube :
    ∃ f : DistanceField ℝ, (ofShapes .standard [.shape cube] none cubeGrid).1 = .ok f ∧
      (∃ g : Grid Bool, (∃ c, g.Holds c) ∧ (∃ c, g.Within c ∧ ¬ g.Holds c) ∧
        ∀ c, g.Within c → IsOuter g c → ¬ g.Holds c) ∧
      f.isOutOfBounds ⟨-100, 0, 0⟩ = true ∧
      ∃ d, IsLeast {t | ∃ q, f.isOutOfBounds q = false ∧ ((⟨-100, 0, 0⟩ : Vec3 ℝ) - q).norm = t} d ∧
        1 / 2 + d ≤ (f.sample ⟨-100, 0, 0⟩).1 := by
  have hcount : Layout.voxelCount (1 : ℝ) 8 = 8 + 2 := Layout.voxelCount_of_whole (by norm_num)
  have hposes : FieldPlan.alignPoses 1 none = .ok [(Pose.origin : Pose ℝ)] := rfl
  obtain ⟨f, g, k, hf, hmarked, hfield⟩ := exists_cubeAt hcount (by norm_num) hposes one_pos (by norm_num) (by decide)
  obtain ⟨horigin, hres, -⟩ := FieldPlan.ofData_eq_ok hfield
  have hout : f.isOutOfBounds ⟨-100, 0, 0⟩ = true := by
    rw [← Bool.not_eq_false, isOutOfBounds_eq_false_iff]
    intro hin
    have hlow := hin.lowX
    rw [horigin] at hlow
    norm_num [cubePlanAt] at hlow
  have hshapes : ∀ s ∈ [cube], s.IsPrimitive := by
    intro s hs
    obtain rfl := List.mem_singleton.mp hs
    trivial
  have hrigid : ∀ q ∈ [(Pose.origin : Pose ℝ)], q.IsRigid := by
    intro q hq
    obtain rfl := List.mem_singleton.mp hq
    exact Pose.isRigid_origin
  have hf' : (ofShapes .standard ([cube].map .shape) none cubeGrid).1 = .ok f := hf
  obtain ⟨⟨plan, g', n, -, hmarked', -, houter, hfree⟩, hfar⟩ := ofShapes_border hf' rfl hshapes hrigid
  obtain ⟨d, hd, hle⟩ := hfar _ hout
  have hocc : ∃ c, g'.Holds c := (FieldPlan.marked_eq_ok hmarked').2.2.2.1
  refine ⟨f, hf, ⟨g', hocc, hfree, fun c hc ho => (houter c hc ho).1⟩, hout, d, hd, ?_⟩
  rw [hres] at hle
  exact hle

end Border

end Clearance.DistanceField
