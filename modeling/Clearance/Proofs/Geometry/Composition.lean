import Clearance.Proofs.Geometry.Moving
import Clearance.Proofs.Geometry.Rows

/-!
# Composition of rigid motions

Poses whose rotations are orthogonal and no reflections can be composed and inverted without
failure, and this makes them a group that acts on points. Motions, which are checked nowhere, and
motions in arrays are composed and inverted in the same way.

* `Motion.apply_mul`, `Motion.mul_assoc`, `Motion.mul_inverse`, `Motion.inverse_mul`: motions.
* `Motion.IsProper`: motions that turn without reflecting, closed under both operations.
* `Pose.ofMotion_eq_ok`: the pose of such a motion passes the checks.
* `Pose.exists_compositions`: the laws of composition, of inversion and of the action on points.
-/

namespace Clearance

/-! ## Matrices -/

namespace Mat3

theorem mulVec_mulVec (m n : Mat3 ℝ) (v : Vec3 ℝ) : m.mulVec (n.mulVec v) = (m.mul n).mulVec v := by
  simp only [mulVec, mul, vecMul, Vec3.dot, Vec3.mk.injEq]
  refine ⟨?_, ?_, ?_⟩ <;> ring

theorem mulVec_add (m : Mat3 ℝ) (u v : Vec3 ℝ) : m.mulVec (u + v) = m.mulVec u + m.mulVec v := by
  simp only [mulVec, Vec3.dot, Vec3.add_def, Vec3.mk.injEq]
  refine ⟨?_, ?_, ?_⟩ <;> ring

theorem identity_mulVec (v : Vec3 ℝ) : identity.mulVec v = v := by
  simp [mulVec, Vec3.dot, identity]

theorem det_transpose (m : Mat3 ℝ) : m.transpose.det = m.det := by
  simp only [det_eq, Mat3.transpose, Vec3.dot, Vec3.cross]
  ring

theorem IsOrthogonal.mul {m n : Mat3 ℝ} (hm : m.IsOrthogonal) (hn : n.IsOrthogonal) : (m.mul n).IsOrthogonal := by
  have h : n.mul n.transpose = identity := hn
  rw [IsOrthogonal, transpose_mul, mul_assoc, ← mul_assoc n, h, identity_mul]
  exact hm

end Mat3

/-! ## Motions -/

namespace Motion

variable {l m n : Motion ℝ}

/-- The motion that leaves everything where it is. -/
noncomputable def identity : Motion ℝ := (Pose.origin : Pose ℝ).toMotion

theorem apply_identity (v : Vec3 ℝ) : identity.apply v = v := by
  simp [apply, identity, Pose.origin, Pose.toMotion, Mat3.identity_mulVec]

theorem apply_mul (m n : Motion ℝ) (v : Vec3 ℝ) : (m.mul n).apply v = m.apply (n.apply v) := by
  rw [apply, apply, apply, mul, Mat3.mulVec_add, Mat3.mulVec_mulVec]
  simp only [Vec3.add_def, Vec3.mk.injEq]
  refine ⟨?_, ?_, ?_⟩ <;> ring

theorem mul_assoc (l m n : Motion ℝ) : (l.mul m).mul n = l.mul (m.mul n) := by
  rw [mul, mul, mul, mul, Mat3.mul_assoc, Mat3.mulVec_add, Mat3.mulVec_mulVec]
  simp only [Vec3.add_def, add_assoc]

theorem mul_inverse (h : m.rotation.IsOrthogonal) : m.mul m.inverse = identity := by
  have hrotation : m.rotation.mul m.rotation.transpose = Mat3.identity := h
  rw [mul, inverse, Mat3.mulVec_neg, Mat3.mulVec_mulVec, hrotation, Mat3.identity_mulVec]
  simp [identity, Pose.origin, Pose.toMotion]

theorem inverse_mul (h : m.rotation.IsOrthogonal) : m.inverse.mul m = identity := by
  have hrotation : m.rotation.transpose.mul m.rotation = Mat3.identity := h.transpose
  simp [mul, inverse, identity, Pose.origin, Pose.toMotion, hrotation]

theorem apply_inverse_apply (h : m.rotation.IsOrthogonal) (v : Vec3 ℝ) : m.inverse.apply (m.apply v) = v := by
  rw [← apply_mul, inverse_mul h, apply_identity]

theorem apply_apply_inverse (h : m.rotation.IsOrthogonal) (v : Vec3 ℝ) : m.apply (m.inverse.apply v) = v := by
  rw [← apply_mul, mul_inverse h, apply_identity]

/-- A motion is proper if its matrix is a rotation: orthogonal and no reflection. -/
structure IsProper (m : Motion ℝ) : Prop where
  isOrthogonal : m.rotation.IsOrthogonal
  det : m.rotation.det = 1

theorem IsProper.mul (hm : m.IsProper) (hn : n.IsProper) : (m.mul n).IsProper where
  isOrthogonal := hm.isOrthogonal.mul hn.isOrthogonal
  det := by rw [Motion.mul, Mat3.det_mul, hm.det, hn.det, one_mul]

theorem IsProper.inverse (hm : m.IsProper) : m.inverse.IsProper where
  isOrthogonal := hm.isOrthogonal.transpose
  det := by rw [Motion.inverse, Mat3.det_transpose, hm.det]

end Motion

/-! ## Poses -/

namespace Pose

/-- The pose with the parts of a motion and no name. -/
def ofRigid (m : Motion ℝ) : Pose ℝ := ⟨m.shift, m.rotation, ""⟩

@[simp] theorem toMotion_ofRigid (m : Motion ℝ) : (ofRigid m).toMotion = m := rfl

/-- The pose of a proper motion passes the checks. -/
theorem ofMotion_eq_ok {m : Motion ℝ} (hm : m.IsProper) : ofMotion m = .ok (ofRigid m) := by
  refine make_eq_ok.mpr ⟨if_neg ?_, checkPosition_eq _, rfl⟩
  rw [hm.det, Exact.lt_iff]
  simp [determinantTolerance]

theorem ofMotion_identity : ofMotion (Motion.identity : Motion ℝ) = .ok origin :=
  make_identity _ _

theorem IsMotion.isProper {p : Pose ℝ} (hp : p.IsMotion) : p.toMotion.IsProper := ⟨hp.isRigid, hp.det⟩

/-- Poses are composed as their motions are. -/
theorem transform_eq_ofMotion (p q : Pose ℝ) : p.transform q = ofMotion (p.toMotion.mul q.toMotion) := rfl

theorem inverse_eq_ofMotion (p : Pose ℝ) : p.inverse = ofMotion p.toMotion.inverse := rfl

/-- A point is seen from a pose where the inverse motion takes it. -/
theorem toLocal_eq_inverse_apply (p : Pose ℝ) (v : Vec3 ℝ) : p.toLocal v = p.toMotion.inverse.apply v := by
  simp only [toLocal, toMotion, Motion.apply, Motion.inverse, Mat3.mulVec, Vec3.dot, Vec3.add_def, Vec3.sub_def,
    Vec3.neg_def, Vec3.mk.injEq]
  refine ⟨?_, ?_, ?_⟩ <;> ring

/-- The pose `r` is what `q` seen from `p` is in the world, however the composition is computed. -/
structure IsComposition (p q r : Pose ℝ) : Prop where
  transform : p.transform q = .ok r
  toMotion : r.toMotion = p.toMotion.mul q.toMotion
  arrays : (LooseMotion.ofMotion p.toMotion).mul (.ofMotion q.toMotion) = .ok (.ofMotion r.toMotion)
  toWorld : ∀ v, r.toWorld v = p.toWorld (q.toWorld v)

/-- The pose `q` undoes `p`, however the inverse is computed. -/
structure IsInverse (p q : Pose ℝ) : Prop where
  inverse : p.inverse = .ok q
  toMotion : q.toMotion = p.toMotion.inverse
  arrays : (LooseMotion.ofMotion p.toMotion).inverse = .ok (.ofMotion q.toMotion)
  transform_left : p.transform q = .ok origin
  transform_right : q.transform p = .ok origin
  toLocal : ∀ v, p.toLocal v = q.toWorld v
  toLocal_toWorld : ∀ v, p.toLocal (p.toWorld v) = v
  toWorld_toLocal : ∀ v, p.toWorld (p.toLocal v) = v

theorem isComposition_ofRigid {p q : Pose ℝ} (hp : p.toMotion.IsProper) (hq : q.toMotion.IsProper) :
    IsComposition p q (ofRigid (p.toMotion.mul q.toMotion)) where
  transform := by rw [transform_eq_ofMotion, ofMotion_eq_ok (hp.mul hq)]
  toMotion := toMotion_ofRigid _
  arrays := by rw [toMotion_ofRigid, LooseMotion.mul_ofMotion]
  toWorld v := by rw [toWorld, toMotion_ofRigid, Motion.apply_mul, toWorld, toWorld]

theorem isInverse_ofRigid {p : Pose ℝ} (hp : p.toMotion.IsProper) :
    IsInverse p (ofRigid p.toMotion.inverse) where
  inverse := by rw [inverse_eq_ofMotion, ofMotion_eq_ok hp.inverse]
  toMotion := toMotion_ofRigid _
  arrays := by rw [toMotion_ofRigid, LooseMotion.inverse_ofMotion]
  transform_left := by
    rw [transform_eq_ofMotion, toMotion_ofRigid, Motion.mul_inverse hp.isOrthogonal, ofMotion_identity]
  transform_right := by
    rw [transform_eq_ofMotion, toMotion_ofRigid, Motion.inverse_mul hp.isOrthogonal, ofMotion_identity]
  toLocal v := by rw [toLocal_eq_inverse_apply, toWorld, toMotion_ofRigid]
  toLocal_toWorld v := by rw [toLocal_eq_inverse_apply, toWorld, Motion.apply_inverse_apply hp.isOrthogonal]
  toWorld_toLocal v := by rw [toLocal_eq_inverse_apply, toWorld, Motion.apply_apply_inverse hp.isOrthogonal]

open LooseMotion (ActsByRows) in
/-- Rigid poses form a group that acts on points: compositions and inverses are made without failure,
    composition is associative and follows the action, the inverse undoes it from both sides, and a
    pose does to every row of an array what it does to a single vector. -/
theorem exists_compositions {a b c : Pose ℝ} (ha : a.IsMotion) (hb : b.IsMotion) (hc : c.IsMotion) :
    ∃ ab bc abc back, IsComposition a b ab ∧ IsComposition b c bc ∧
      IsComposition ab c abc ∧ IsComposition a bc abc ∧ IsInverse a back ∧
      ActsByRows (LooseMotion.ofMotion a.toMotion).apply a.toMotion.applyRows a.toWorld ∧
      ActsByRows (LooseMotion.ofMotion a.toMotion).toLocal a.rowsToLocal a.toLocal ∧
      ActsByRows (LooseMotion.ofMotion a.toMotion).rotate a.toMotion.rotateRows a.toMotion.rotate := by
  have hab := isComposition_ofRigid ha.isProper hb.isProper
  have hbc := isComposition_ofRigid hb.isProper hc.isProper
  have habc :=
    isComposition_ofRigid (p := ofRigid (a.toMotion.mul b.toMotion)) (ha.isProper.mul hb.isProper) hc.isProper
  have habc' :=
    isComposition_ofRigid (q := ofRigid (b.toMotion.mul c.toMotion)) ha.isProper (hb.isProper.mul hc.isProper)
  have hassoc : (ofRigid (a.toMotion.mul b.toMotion)).toMotion.mul c.toMotion =
      a.toMotion.mul (ofRigid (b.toMotion.mul c.toMotion)).toMotion :=
    Motion.mul_assoc a.toMotion b.toMotion c.toMotion
  rw [← hassoc] at habc'
  exact ⟨_, _, _, _, hab, hbc, habc, habc', isInverse_ofRigid ha.isProper, LooseMotion.actsByRows_apply a.toMotion,
    LooseMotion.actsByRows_toLocal a, LooseMotion.actsByRows_rotate a.toMotion⟩

/-- A quarter turn about the upward axis. -/
noncomputable def turnedUp : Pose ℝ := ⟨⟨1, 2, 3⟩, ⟨⟨0, -1, 0⟩, ⟨1, 0, 0⟩, ⟨0, 0, 1⟩⟩, "turntable"⟩

/-- A quarter turn about the forward axis. -/
noncomputable def turnedForward : Pose ℝ := ⟨⟨0, 0, 5⟩, ⟨⟨1, 0, 0⟩, ⟨0, 0, -1⟩, ⟨0, 1, 0⟩⟩, "roll"⟩

theorem isMotion_turnedUp : turnedUp.IsMotion where
  isRigid := by simp [IsRigid, Mat3.IsOrthogonal, turnedUp, Mat3.mul, Mat3.vecMul, Mat3.transpose, Mat3.identity]
  det := by simp [Mat3.det_eq, turnedUp, Vec3.dot, Vec3.cross]

theorem isMotion_turnedForward : turnedForward.IsMotion where
  isRigid := by
    simp [IsRigid, Mat3.IsOrthogonal, turnedForward, Mat3.mul, Mat3.vecMul, Mat3.transpose, Mat3.identity]
  det := by simp [Mat3.det_eq, turnedForward, Vec3.dot, Vec3.cross]

/-- Quarter turns about two axes, composed and undone. -/
theorem exists_compositions_turned : turnedUp.IsMotion ∧ turnedForward.IsMotion ∧
    ∃ r back, turnedUp.transform turnedForward = .ok r ∧ r.toWorld ⟨0, 1, 0⟩ = ⟨1, 2, 9⟩ ∧
      turnedUp.inverse = .ok back ∧ back.toWorld ⟨1, 2, 9⟩ = ⟨0, 0, 6⟩ ∧
      turnedUp.rowsToLocal [⟨1, 2, 9⟩] = [⟨0, 0, 6⟩] := by
  obtain ⟨r, _, _, back, hr, -, -, -, hback, -, hlocal, -⟩ :=
    exists_compositions isMotion_turnedUp isMotion_turnedForward isMotion_turnedUp
  have hpoint : turnedUp.toLocal ⟨1, 2, 9⟩ = ⟨0, 0, 6⟩ := by
    norm_num [toLocal, turnedUp, Mat3.mulVec, Mat3.transpose, Vec3.dot]
  refine ⟨isMotion_turnedUp, isMotion_turnedForward, r, back, hr.transform, ?_, hback.inverse, ?_, ?_⟩
  · rw [hr.toWorld]
    norm_num [toWorld, toMotion, Motion.apply, turnedUp, turnedForward, Mat3.mulVec, Vec3.dot]
  · rw [← hback.toLocal, hpoint]
  · rw [hlocal.list, List.map_singleton, hpoint]

end Pose

end Clearance
