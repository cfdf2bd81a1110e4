import Clearance.Proofs.Geometry.Rigid

/-!
# Moved poses

A rigid motion of the world takes every pose to another. What is seen from a pose does not change,
since the determinants on which the checks of poses rest are multiplicative: the elimination computes
the triple product of the rows, whichever pivots it takes.

* `Mat3.det_eq`, `Mat3.det_mul`: the determinant.
* `Pose.IsMotion`: the rigid motions.
* `Pose.make_eq_ok_iff`: when a pose can be made.
* `Pose.moved`, `Pose.transform_eq`: moved poses, and composition as the program does it.
* `Pose.applyRow_moved`, `Pose.rowToLocal_moved`, `Pose.rotateRow_moved`: points and directions seen
  from moved poses.
-/

namespace Clearance

/-! ## Determinants -/

namespace Mat3

theorem displaces_iff {a b : ℝ} : displaces a b = true ↔ |b| < |a| := by
  simp [displaces]

/-- A column vanishes in the two by two elimination only if the determinant does. -/
theorem getD_det2 (a b c d : ℝ) : (det2 a b c d).getD 0 = a * d - c * b := by
  unfold det2
  split
  · rename_i h
    have hc : c ≠ 0 := abs_pos.mp ((abs_nonneg a).trans_lt (displaces_iff.mp h))
    rw [Option.getD_some]
    field_simp
    ring
  · rename_i h
    split
    · rename_i ha
      have ha : a = 0 := (Exact.eq_iff.mp ha).trans Exact.zero_eq
      have hc : c = 0 := by
        rw [displaces_iff, ha, abs_zero] at h
        exact abs_nonpos_iff.mp (not_lt.mp h)
      simp [ha, hc]
    · rename_i ha
      have ha : a ≠ 0 := fun e => ha (Exact.eq_iff.mpr (e.trans Exact.zero_eq.symm))
      rw [Option.getD_some]
      field_simp

/-- Eliminating by a row whose entry is of greatest size gives the triple product of the rows. -/
theorem getD_eliminate {p q r : Vec3 ℝ} (hq : |q.x| ≤ |p.x|) (hr : |r.x| ≤ |p.x|) :
    (eliminate p q r).getD 0 = p.dot (q.cross r) := by
  unfold eliminate
  split
  · rename_i hp
    have hp : p.x = 0 := (Exact.eq_iff.mp hp).trans Exact.zero_eq
    rw [hp, abs_zero] at hq hr
    simp [Vec3.dot, Vec3.cross, hp, abs_nonpos_iff.mp hq, abs_nonpos_iff.mp hr]
  · rename_i hp
    have hp : p.x ≠ 0 := fun e => hp (Exact.eq_iff.mpr (e.trans Exact.zero_eq.symm))
    have hmap : ∀ o : Option ℝ, (o.map (p.x * ·)).getD 0 = p.x * o.getD 0 := fun o => by
      cases o <;> simp
    simp only [hmap, getD_det2, Vec3.dot, Vec3.cross]
    field_simp
    ring

/-- The determinant is the triple product of the rows. -/
theorem det_eq (m : Mat3 ℝ) : m.det = m.row1.dot (m.row2.cross m.row3) := by
  have hneg : ∀ o : Option ℝ, (o.map (-·)).getD 0 = -o.getD 0 := fun o => by cases o <;> simp
  unfold det
  rw [Exact.zero_eq]
  by_cases h2 : displaces m.row2.x m.row1.x = true
  · have h21 := (displaces_iff.mp h2).le
    simp only [h2, if_true]
    by_cases h3 : displaces m.row3.x m.row2.x = true
    · have h32 := (displaces_iff.mp h3).le
      rw [if_pos h3, hneg, getD_eliminate h32 (h21.trans h32)]
      simp only [Vec3.dot, Vec3.cross]
      ring
    · have h32 := not_lt.mp (mt displaces_iff.mpr h3)
      rw [if_neg h3, hneg, getD_eliminate h21 h32]
      simp only [Vec3.dot, Vec3.cross]
      ring
  · have h21 := not_lt.mp (mt displaces_iff.mpr h2)
    simp only [h2, Bool.false_eq_true, if_false]
    by_cases h3 : displaces m.row3.x m.row1.x = true
    · have h31 := (displaces_iff.mp h3).le
      rw [if_pos h3, hneg, getD_eliminate (h21.trans h31) h31]
      simp only [Vec3.dot, Vec3.cross]
      ring
    · rw [if_neg h3]
      exact getD_eliminate h21 (not_lt.mp (mt displaces_iff.mpr h3))

theorem det_mul (m n : Mat3 ℝ) : (m.mul n).det = m.det * n.det := by
  simp only [det_eq, mul, vecMul, Vec3.dot, Vec3.cross]
  ring

theorem mul_assoc (m n k : Mat3 ℝ) : (m.mul n).mul k = m.mul (n.mul k) := by
  refine toMatrix_injective ?_
  simp only [toMatrix_mul, Matrix.mul_assoc]

theorem transpose_mul (m n : Mat3 ℝ) : (m.mul n).transpose = n.transpose.mul m.transpose := by
  simp only [mul, vecMul, Mat3.transpose, Mat3.mk.injEq, Vec3.mk.injEq]
  refine ⟨⟨?_, ?_, ?_⟩, ⟨?_, ?_, ?_⟩, ⟨?_, ?_, ?_⟩⟩ <;> ring

theorem mulVec_neg (m : Mat3 ℝ) (v : Vec3 ℝ) : m.mulVec (-v) = -m.mulVec v := by
  simp only [mulVec, Vec3.dot, Vec3.neg_def, Vec3.mk.injEq]
  refine ⟨?_, ?_, ?_⟩ <;> ring

end Mat3

/-! ## Motions -/

namespace Pose

/-- A rigid motion of the world, given as a pose: its rotation is orthogonal and no reflection. -/
structure IsMotion (g : Pose ℝ) : Prop where
  isRigid : g.IsRigid
  det : g.rotation.det = 1

/-- The pose that a motion takes a pose to. -/
noncomputable def moved (p g : Pose ℝ) : Pose ℝ :=
  ⟨g.position + g.rotation.mulVec p.position, g.rotation.mul p.rotation, ""⟩

variable {g : Pose ℝ}

/-- The rotation of a moved pose passes its check if that of the pose does. -/
theorem checkRotation_mul (hg : g.IsMotion) (m : Mat3 ℝ) :
    checkRotation (g.rotation.mul m) = (checkRotation m).map g.rotation.mul := by
  unfold checkRotation
  rw [Mat3.det_mul, hg.det, one_mul]
  split <;> rfl

theorem checkPosition_eq (v : Vec3 ℝ) : checkPosition v = .ok v := if_pos (by simp [Vec3.isFinite, Vec3.all])

/-- A rotation passes its check if its determinant is one up to the tolerance. -/
theorem checkRotation_eq_ok {m : Mat3 ℝ} : checkRotation m = .ok m ↔ |m.det - 1| ≤ 1 / 1000 := by
  have htolerance : (determinantTolerance : ℝ) = 1 / 1000 := by
    rw [determinantTolerance, Exact.ofScientific_eq]
    norm_num
  unfold checkRotation
  split
  · rename_i h
    rw [Exact.lt_iff, Exact.abs_eq, htolerance, Exact.one_eq] at h
    refine ⟨fun heq => ?_, fun hle => absurd h (not_lt.mpr hle)⟩
    cases heq
  · rename_i h
    rw [Exact.lt_iff, Exact.abs_eq, htolerance, Exact.one_eq] at h
    exact ⟨fun _ => not_lt.mp h, fun _ => rfl⟩

/-- In exact arithmetic a pose can be made of any position, if the rotation passes its check. -/
theorem make_eq_ok_iff {v : Vec3 ℝ} {m : Mat3 ℝ} {name : String} {p : Pose ℝ} :
    make v m name = .ok p ↔ |m.det - 1| ≤ 1 / 1000 ∧ p = ⟨v, m, name⟩ := by
  rw [make_eq_ok, checkRotation_eq_ok]
  exact and_congr_right fun _ => and_iff_right (checkPosition_eq v)

/-- A pose can be copied if a motion can be composed with it, and the motion composed with it is the
    moved copy. -/
theorem transform_eq (hg : g.IsMotion) (p : Pose ℝ) : g.transform p = p.copy.map (moved · g) := by
  unfold transform copy make
  rw [checkRotation_mul hg, checkPosition_eq, checkPosition_eq]
  cases h : checkRotation p.rotation with
  | error e => rfl
  | ok r => rfl

theorem copy_moved (hg : g.IsMotion) (p : Pose ℝ) : (p.moved g).copy = p.copy.map (moved · g) :=
  transform_eq hg p

/-- Composition with a moved pose. -/
theorem transform_moved (hg : g.IsMotion) (p q : Pose ℝ) :
    (p.moved g).transform q = (p.transform q).map (moved · g) := by
  have hposition : (p.moved g).position + (p.moved g).rotation.mulVec q.position =
      g.position + g.rotation.mulVec (p.position + p.rotation.mulVec q.position) := by
    simp only [moved, Mat3.mulVec, Mat3.mul, Mat3.vecMul, Vec3.dot, Vec3.add_def, Vec3.mk.injEq]
    refine ⟨?_, ?_, ?_⟩ <;> ring
  have hrotation : (p.moved g).rotation.mul q.rotation = g.rotation.mul (p.rotation.mul q.rotation) :=
    Mat3.mul_assoc _ _ _
  unfold transform
  rw [hposition, hrotation]
  exact transform_eq hg ⟨_, p.rotation.mul q.rotation, ""⟩

/-! ## Points and directions seen from moved poses -/

theorem toWorld_moved (p : Pose ℝ) (v : Vec3 ℝ) : (p.moved g).toWorld v = g.toWorld (p.toWorld v) := by
  simp only [toWorld, toMotion, Motion.apply, moved, Mat3.mulVec, Mat3.mul, Mat3.vecMul, Vec3.dot,
    Vec3.add_def, Vec3.mk.injEq]
  refine ⟨?_, ?_, ?_⟩ <;> ring

theorem applyRow_moved (p : Pose ℝ) (v : Vec3 ℝ) :
    (p.moved g).toMotion.applyRow v = g.toWorld (p.toMotion.applyRow v) := by
  rw [← toWorld_eq_applyRow, ← toWorld_eq_applyRow, toWorld_moved]

theorem rotateRow_moved (p : Pose ℝ) (v : Vec3 ℝ) :
    (p.moved g).toMotion.rotateRow v = g.rotation.mulVec (p.toMotion.rotateRow v) := by
  rw [Mat3.mulVec_eq_vecMul, Motion.rotateRow, Motion.rotateRow, Mat3.vecMul_vecMul]
  exact congrArg _ (Mat3.transpose_mul _ _)

/-- What is seen from a pose is seen from the moved pose where it was moved to. -/
theorem rowToLocal_moved (hg : g.IsMotion) (p : Pose ℝ) (v : Vec3 ℝ) :
    (p.moved g).rowToLocal (g.toWorld v) = p.rowToLocal v := by
  have hundone : g.rotation.transpose.mul (g.rotation.mul p.rotation) = p.rotation := by
    have h : g.rotation.transpose.mul g.rotation = Mat3.identity := Mat3.IsOrthogonal.transpose hg.isRigid
    rw [← Mat3.mul_assoc, h, Mat3.identity_mul]
  have hshift : g.toWorld v - (p.moved g).position = Mat3.vecMul (v - p.position) g.rotation.transpose := by
    simp only [toWorld, toMotion, Motion.apply, moved, Mat3.mulVec, Mat3.vecMul, Mat3.transpose, Vec3.dot,
      Vec3.add_def, Vec3.sub_def, Vec3.mk.injEq]
    refine ⟨?_, ?_, ?_⟩ <;> ring
  rw [rowToLocal, hshift, Mat3.vecMul_vecMul]
  exact congrArg _ hundone

theorem norm_toWorld_sub (hg : g.IsMotion) (u v : Vec3 ℝ) :
    (g.toWorld u - g.toWorld v).norm = (u - v).norm := by
  rw [toWorld_eq_applyRow, toWorld_eq_applyRow, norm_applyRow_sub hg.isRigid]

end Pose

end Clearance
