import Clearance.Proofs.Geometry.Composition
import Clearance.Proofs.Number.Binary64Order
import Clearance.Input.PoseReading

/-!
# Matrices that pass for rotations

A matrix that is handed in as a rotation is kept as it is, and all that is asked of it is that its
determinant be one up to a tolerance. A point that is taken to the world and back is off by as much as
the matrix is off being orthogonal.

* `Read.Handed`, `Read.Handed.matrix?`, `Read.Handed.rotation`: the ways to hand in a matrix, which
  matrix that is, and the rotation that comes of it.
* `Read.Handed.of_rotation`: what is accepted is kept, and passes the check.
* `Mat3.defect`, `Pose.toLocal_toWorld_sub`: how the columns are off being orthogonal, and how far that
  leads points from where they were.
* `Read.Handed.deviation_le_of_accepted`: all that is known of a matrix that is accepted.
* `Pose.exists_copy_and_lt_norm`: there is no bound on how far points are led.
-/

namespace Clearance

/-- A matrix that passes as a rotation is kept as it is. -/
theorem Pose.of_checkRotation {α : Type} [Scalar α] {m r : Mat3 α} (h : checkRotation m = .ok r) :
    r = m ∧ checkRotation m = .ok m := by
  unfold checkRotation at h ⊢
  split at h
  · cases h
  · rename_i hdet
    cases h
    exact ⟨rfl, if_neg hdet⟩

/-! ## What is handed in -/

namespace Read

/-- The matrix that a value stands for, if it is an array of three rows. -/
def matrix? (v : Value) : Option (Mat3 Float) := v.toTensor.toOption.bind Tensor.toMat3?

/-- The upper left block of a homogeneous matrix. -/
def block? (v : Value) : Option (Mat3 Float) :=
  (v.toTensor.toOption.bind homogeneous?).bind fun parts => parts.2.toMat3?

/-- The ways in which a matrix is handed in as a rotation: to the setter, with or in a position to the
    constructor, or with or in something that stands for a pose. -/
inductive Handed where
  | setter (turn : Value)
  | parts (position turn : Value) (name : Option String)
  | source (v : Value)
  | arrays (shift turn : Tensor Float)
  | pose (p : Pose Float)

/-- The matrix that is handed in, if it is one. That of a homogeneous matrix goes before any other. -/
def Handed.matrix? : Handed → Option (Mat3 Float)
  | .setter turn => Read.matrix? turn
  | .parts position turn _ => (block? position).or (Read.matrix? turn)
  | .source v => block? v
  | .arrays shift turn => (block? (.tensor shift)).or (Read.matrix? (.tensor turn))
  | .pose p => some p.rotation

/-- The rotation that comes of what is handed in. -/
def Handed.rotation : Handed → Except (Error Float) (Mat3 Float)
  | .setter turn => Read.rotation turn
  | .parts position turn name => (Read.pose position turn name).map Pose.rotation
  | .source v => (poseSource v).toPose.map Pose.rotation
  | .arrays shift turn => (arraysSource shift turn).toPose.map Pose.rotation
  | .pose p => (PoseSource.pose p).toPose.map Pose.rotation

/-! ## What is accepted -/

/-- What goes on with a value that was read goes on with what it was read as. -/
theorem lift_bind {β γ : Type} {x : Except Fault β} {b : β} (h : x = .ok b) (k : β → Except (Error Float) γ) :
    ((liftM x : Except (Error Float) β) >>= k) = k b := by
  rw [h]
  rfl

theorem toOption_eq_some {ε β : Type} {x : Except ε β} {b : β} : x.toOption = some b ↔ x = .ok b := by
  cases x <;> simp [Except.toOption]

/-- An array that stands for a matrix has three rows of three entries. -/
theorem exists_of_toMat3? {t : Tensor Float} {m : Mat3 Float} (h : t.toMat3? = some m) :
    t.shape = [3, 3] ∧ t.data.toList = m.entries := by
  unfold Tensor.toMat3? at h
  split at h
  · rename_i hshape
    split at h
    · rename_i hdata
      cases h
      exact ⟨hshape, hdata⟩
    · cases h
  · cases h

/-- A matrix that stands as rows is taken as it is, and checked. -/
theorem rotation_of_matrix {v : Value} {m : Mat3 Float} (h : matrix? v = some m) :
    rotation v = Pose.checkRotation m := by
  obtain ⟨t, hread, hm⟩ := Option.bind_eq_some_iff.mp h
  obtain ⟨hshape, hdata⟩ := exists_of_toMat3? hm
  have hnumeric : (Value.tensor t).isNumeric = true := by
    simp [Value.isNumeric, Value.leaves, hdata, Mat3.entries, Vec3.toList, Value.isNumberOrBool, Value.isNumber]
  have hmatrix : matrix (.tensor t) = Pose.checkRotation m := by
    have hself : (Value.tensor t).toTensor = .ok t := rfl
    simp only [matrix, Value.shape?, hnumeric, Option.isNone_some, Bool.false_eq_true, if_false, Bool.not_true]
    rw [lift_bind hself, hm]
  rw [← hmatrix, rotation, lift_bind (toOption_eq_some.mp hread), hshape]
  rfl

/-- Nothing stands for no matrix. -/
theorem ne_null_of_matrix {v : Value} {m : Mat3 Float} (h : matrix? v = some m) : v ≠ .null := by
  rintro rfl
  cases h

/-- The upper left block of a homogeneous matrix has three rows of three entries. -/
theorem exists_of_homogeneous? {t shift block : Tensor Float} (h : homogeneous? t = some (shift, block)) :
    ∃ m, block.toMat3? = some m := by
  unfold homogeneous? at h
  split at h
  · cases h
    exact ⟨_, rfl⟩
  · cases h

/-- Whatever becomes of a rotation that is read, a matrix is read as it is, and passes the check. -/
theorem of_rotation_bind {turn : Value} {m : Mat3 Float} {p : Pose Float}
    {k : Mat3 Float → Except (Error Float) (Pose Float)} (hk : ∀ r q, k r = .ok q → q.rotation = r)
    (hm : matrix? turn = some m) (h : (match turn with
      | .null => pure Mat3.identity >>= k
      | v => rotation v >>= k) = .ok p) : p.rotation = m ∧ Pose.checkRotation m = .ok m := by
  have hbind : (rotation turn >>= k) = .ok p := by
    cases turn with
    | null => exact absurd rfl (ne_null_of_matrix hm)
    | _ => exact h
  obtain ⟨r, hr, h⟩ := bind_eq_ok.mp hbind
  rw [rotation_of_matrix hm] at hr
  obtain ⟨rfl, hcheck⟩ := Pose.of_checkRotation hr
  exact ⟨hk _ _ h, hcheck⟩

/-- A matrix that a pose is read from is its rotation, and passes the check. -/
theorem of_pose {position turn : Value} {name : Option String} {p : Pose Float} {m : Mat3 Float}
    (h : pose position turn name = .ok p) (hm : (block? position).or (matrix? turn) = some m) :
    p.rotation = m ∧ Pose.checkRotation m = .ok m := by
  have hplaced : ∀ (shift : Value) (r : Mat3 Float) (q : Pose Float), ((do
      let p ← match shift with
        | .null => pure ⟨0, 0, 0⟩
        | v => Read.position v
      return ⟨p, r, name.getD ""⟩) : Except (Error Float) (Pose Float)) = .ok q → q.rotation = r := by
    intro shift r q h
    cases shift <;>
    · obtain ⟨v, -, h⟩ := bind_eq_ok.mp h
      cases h
      rfl
  unfold pose at h
  split at h
  · exact of_rotation_bind (hplaced .null) hm h
  · obtain ⟨t, ht, h⟩ := bind_eq_ok.mp h
    have hread : position.toTensor = .ok t := Fault.lift_eq_ok.mp ht
    rw [block?, toOption_eq_some.mpr hread, Option.bind_some] at hm
    split at h
    · rename_i shift block hparts
      obtain ⟨own, hown⟩ := exists_of_homogeneous? hparts
      rw [hparts, Option.bind_some, hown, Option.some_or] at hm
      have hblock : matrix? (.tensor block) = some m := hown.trans hm
      exact of_rotation_bind (hplaced (.tensor shift)) hblock h
    · rename_i hparts
      rw [hparts] at hm
      exact of_rotation_bind (hplaced position) hm h

theorem of_homogeneousPose {v : Value} {p : Pose Float} {m : Mat3 Float} (h : homogeneousPose v = .ok p)
    (hm : block? v = some m) : p.rotation = m ∧ Pose.checkRotation m = .ok m := by
  obtain ⟨t, ht, h⟩ := bind_eq_ok.mp h
  have hread : v.toTensor = .ok t := Fault.lift_eq_ok.mp ht
  have hblock : block? (.tensor t) = some m := by
    rw [← hm, block?, block?, hread]
    rfl
  split at h
  · refine of_pose h ?_
    rw [hblock, Option.some_or]
  · cases h

/-- A matrix that is accepted is kept as it is, and passes the check. -/
theorem Handed.of_rotation {given : Handed} {m r : Mat3 Float} (hm : given.matrix? = some m)
    (h : given.rotation = .ok r) : r = m ∧ Pose.checkRotation m = .ok m := by
  cases given with
  | setter turn =>
    rw [Handed.rotation, rotation_of_matrix hm] at h
    exact Pose.of_checkRotation h
  | parts position turn name =>
    obtain ⟨p, hp, rfl⟩ := map_eq_ok.mp h
    exact of_pose hp hm
  | source v =>
    obtain ⟨p, hp, rfl⟩ := map_eq_ok.mp h
    cases v with
    | null => cases hm
    | _ => exact of_homogeneousPose hp hm
  | arrays shift turn =>
    obtain ⟨p, hp, rfl⟩ := map_eq_ok.mp h
    have hpose : Read.pose (.tensor shift) (.tensor turn) none = .ok p := hp
    exact of_pose hpose hm
  | pose p =>
    obtain ⟨q, hq, rfl⟩ := map_eq_ok.mp h
    cases hm
    cases Pose.eq_of_copy hq
    exact ⟨rfl, (Pose.make_eq_ok.mp hq).1⟩

end Read

/-! ## The determinant -/

/-- How far the determinant of a matrix is from one. -/
def Mat3.deviation {α : Type} [Scalar α] (m : Mat3 α) : α := Scalar.abs (m.det - 1)

/-- The determinant of a matrix that passes the check is one up to the tolerance, if it is a number at all. -/
theorem Pose.deviation_le {m : Mat3 Float} (h : checkRotation m = .ok m)
    (hnumber : Scalar.isNaN m.deviation = false) : Scalar.le m.deviation determinantTolerance = true := by
  have hdeviation : Scalar.le m.deviation m.deviation = true := by
    rw [← Bool.not_eq_false, ← Scalar.isNaN_iff_le_self, hnumber]
    exact Bool.false_ne_true
  have htolerance : Scalar.le (determinantTolerance : Float) determinantTolerance = true := by decide +kernel
  refine Scalar.le_of_not_lt hdeviation htolerance fun hlt => ?_
  have hrefused : checkRotation m = .error .rotationDeterminant := if_pos hlt
  rw [hrefused] at h
  cases h

/-! ## To the world and back -/

namespace Vec3

/-- The product with a vector of small coordinates is small. -/
theorem dot_sq_le_of_abs_le {u : Vec3 ℝ} {bound : ℝ} (h : ∀ a ∈ u.toList, |a| ≤ bound) (v : Vec3 ℝ) :
    u.dot v ^ 2 ≤ 3 * bound ^ 2 * v.normSq := by
  have hsq : ∀ a ∈ u.toList, a ^ 2 ≤ bound ^ 2 := fun a ha => sq_le_sq.mpr ((h a ha).trans (le_abs_self bound))
  simp only [toList, List.mem_cons, List.not_mem_nil, or_false, forall_eq_or_imp, forall_eq] at hsq
  have hu : u.normSq ≤ 3 * bound ^ 2 := by
    rw [normSq]
    linarith
  exact (dot_sq_le u v).trans (mul_le_mul_of_nonneg_right hu (normSq_nonneg v))

end Vec3

namespace Mat3

/-- How the columns of a matrix are off being orthogonal: the product of the transpose with the matrix,
    less the identity. -/
def defect {α : Type} [Scalar α] (m : Mat3 α) : Mat3 α :=
  let products := m.transpose.mul m
  ⟨products.row1 - ⟨1, 0, 0⟩, products.row2 - ⟨0, 1, 0⟩, products.row3 - ⟨0, 0, 1⟩⟩

/-- No entry is greater in size than a bound. -/
def IsWithin (bound : ℝ) (m : Mat3 ℝ) : Prop := ∀ a ∈ m.entries, |a| ≤ bound

variable {m : Mat3 ℝ} {bound : ℝ}

theorem isWithin_iff : m.IsWithin bound ↔ (∀ a ∈ m.row1.toList, |a| ≤ bound) ∧
    (∀ a ∈ m.row2.toList, |a| ≤ bound) ∧ ∀ a ∈ m.row3.toList, |a| ≤ bound := by
  simp only [IsWithin, entries, List.forall_mem_append, and_assoc]

theorem defect_mulVec (m : Mat3 ℝ) (v : Vec3 ℝ) : m.defect.mulVec v = (m.transpose.mul m).mulVec v - v := by
  simp only [defect, mulVec, Vec3.dot, Vec3.sub_def, Vec3.mk.injEq, Exact.one_eq, Exact.zero_eq]
  refine ⟨?_, ?_, ?_⟩ <;> ring

/-- A matrix is orthogonal if and only if it is not off at all. -/
theorem isWithin_zero_defect_iff : m.defect.IsWithin 0 ↔ m.IsOrthogonal := by
  have hzero : m.defect.IsWithin 0 ↔ m.transpose.mul m = identity := by
    rw [isWithin_iff, defect]
    generalize m.transpose.mul m = products
    obtain ⟨⟨a, b, c⟩, ⟨d, e, f⟩, ⟨g, h, i⟩⟩ := products
    simp [Vec3.toList, identity, sub_eq_zero, and_assoc]
  rw [hzero]
  constructor
  · intro h
    have htranspose : m.transpose.IsOrthogonal := h
    exact htranspose.transpose
  · exact IsOrthogonal.transpose

/-- A matrix with small entries takes no vector far. -/
theorem IsWithin.norm_mulVec_le (h : m.IsWithin bound) (v : Vec3 ℝ) : (m.mulVec v).norm ≤ 3 * bound * v.norm := by
  obtain ⟨h1, h2, h3⟩ := isWithin_iff.mp h
  have hbound : 0 ≤ bound := (abs_nonneg m.row1.x).trans (h1 _ List.mem_cons_self)
  have hnorm := Vec3.norm_nonneg v
  rw [Vec3.norm_le_iff (by positivity)]
  calc (m.mulVec v).normSq = m.row1.dot v ^ 2 + m.row2.dot v ^ 2 + m.row3.dot v ^ 2 := rfl
    _ ≤ 3 * bound ^ 2 * v.normSq + 3 * bound ^ 2 * v.normSq + 3 * bound ^ 2 * v.normSq :=
      add_le_add (add_le_add (Vec3.dot_sq_le_of_abs_le h1 v) (Vec3.dot_sq_le_of_abs_le h2 v))
        (Vec3.dot_sq_le_of_abs_le h3 v)
    _ = (3 * bound * v.norm) ^ 2 := by
      rw [← Vec3.norm_sq]
      ring

/-- A matrix that takes no vector far has small entries, since its columns are where it takes the
    vectors along the axes. -/
theorem isWithin_of_norm_mulVec_le (h : ∀ v, (m.mulVec v).norm ≤ bound * v.norm) : m.IsWithin bound := by
  have hcolumn : ∀ v : Vec3 ℝ, v.normSq = 1 →
      |m.row1.dot v| ≤ bound ∧ |m.row2.dot v| ≤ bound ∧ |m.row3.dot v| ≤ bound := by
    intro v hv
    have hle := h v
    rw [Vec3.norm_eq v, hv, Real.sqrt_one, mul_one] at hle
    exact ⟨(Vec3.abs_x_le_norm (m.mulVec v)).trans hle, (Vec3.abs_y_le_norm (m.mulVec v)).trans hle,
      (Vec3.abs_z_le_norm (m.mulVec v)).trans hle⟩
  have hx := hcolumn ⟨1, 0, 0⟩ (by simp [Vec3.normSq])
  have hy := hcolumn ⟨0, 1, 0⟩ (by simp [Vec3.normSq])
  have hz := hcolumn ⟨0, 0, 1⟩ (by simp [Vec3.normSq])
  simp only [Vec3.dot, mul_one, mul_zero, add_zero, zero_add] at hx hy hz
  rw [isWithin_iff]
  simp only [Vec3.toList, List.mem_cons, List.not_mem_nil, or_false, forall_eq_or_imp, forall_eq]
  exact ⟨⟨hx.1, hy.1, hz.1⟩, ⟨hx.2.1, hy.2.1, hz.2.1⟩, hx.2.2, hy.2.2, hz.2.2⟩

end Mat3

namespace Pose

/-- A point that is taken to the world and back is off by what the columns of the rotation are. -/
theorem toLocal_toWorld_sub (p : Pose ℝ) (v : Vec3 ℝ) :
    p.toLocal (p.toWorld v) - v = p.rotation.defect.mulVec v := by
  have hback : p.toLocal (p.toWorld v) = p.rotation.transpose.mulVec (p.rotation.mulVec v) := by
    rw [toLocal, toWorld, Motion.apply]
    congr 1
    simp [toMotion]
  rw [hback, Mat3.mulVec_mulVec, Mat3.defect_mulVec]

/-- The way to the world and back leads every point to where it was if and only if the pose is rigid. -/
theorem toLocal_toWorld_iff {p : Pose ℝ} : (∀ v, p.toLocal (p.toWorld v) = v) ↔ p.IsRigid := by
  constructor
  · intro h
    refine Mat3.isWithin_zero_defect_iff.mp (Mat3.isWithin_of_norm_mulVec_le fun v => ?_)
    rw [← toLocal_toWorld_sub, h, Vec3.norm_sub_self, zero_mul]
  · intro hp v
    have horthogonal : p.toMotion.rotation.IsOrthogonal := hp
    rw [toLocal_eq_inverse_apply]
    exact Motion.apply_inverse_apply horthogonal v

end Pose

namespace Read

/-- A matrix that is accepted as a rotation is kept as it is, and its determinant is one up to the
    tolerance if it is a number. In exact arithmetic this is what is asked of it, and the way to the
    world and back leads points as far from where they were as the columns are off being orthogonal:
    nowhere else if and only if the pose is rigid, and otherwise by a part of their length that is small
    if and only if all entries are. -/
theorem Handed.deviation_le_of_accepted :
    (∀ (given : Handed) (m r : Mat3 Float), given.matrix? = some m → given.rotation = .ok r →
      r = m ∧ (Scalar.isNaN m.deviation = false → Scalar.le m.deviation Pose.determinantTolerance = true)) ∧
    ∀ p : Pose ℝ, (p.copy = .ok p ↔ |p.rotation.det - 1| ≤ 1 / 1000) ∧
      (∀ v, p.toLocal (p.toWorld v) - v = p.rotation.defect.mulVec v) ∧
      ((∀ v, p.toLocal (p.toWorld v) = v) ↔ p.IsRigid) ∧
      ∀ bound, (p.rotation.defect.IsWithin bound →
          ∀ v, (p.toLocal (p.toWorld v) - v).norm ≤ 3 * bound * v.norm) ∧
        ((∀ v, (p.toLocal (p.toWorld v) - v).norm ≤ bound * v.norm) → p.rotation.defect.IsWithin bound) := by
  constructor
  · intro given m r hm h
    obtain ⟨heq, hcheck⟩ := of_rotation hm h
    exact ⟨heq, Pose.deviation_le hcheck⟩
  · intro p
    have hoff := p.toLocal_toWorld_sub
    refine ⟨?_, hoff, Pose.toLocal_toWorld_iff, fun bound => ⟨?_, ?_⟩⟩
    · rw [Pose.copy, Pose.make_eq_ok_iff]
      exact and_iff_left rfl
    · intro h v
      rw [hoff]
      exact h.norm_mulVec_le v
    · intro h
      refine Mat3.isWithin_of_norm_mulVec_le fun v => ?_
      rw [← hoff]
      exact h v

/-- A homogeneous matrix with a quarter turn. -/
def quarterRows : Value :=
  .list [.list [.int 0, .int (-1), .int 0, .int 5], .list [.int 1, .int 0, .int 0, .int 6],
    .list [.int 0, .int 0, .int 1, .int 7], .list [.int 0, .int 0, .int 0, .int 1]]

/-- The quarter turn is accepted, and a turntable that is turned so leads points back. -/
theorem deviation_le_of_accepted_quarter : ∃ quarter : Mat3 Float,
    (Handed.source quarterRows).matrix? = some quarter ∧ (Handed.source quarterRows).rotation = .ok quarter ∧
      Scalar.isNaN quarter.deviation = false ∧ Scalar.le quarter.deviation Pose.determinantTolerance = true ∧
      ∀ v, Pose.turnedUp.toLocal (Pose.turnedUp.toWorld v) = v := by
  have hmatrix : (Handed.source quarterRows).matrix? = some ⟨⟨0, -1, 0⟩, ⟨1, 0, 0⟩, ⟨0, 0, 1⟩⟩ := by decide +kernel
  have hrotation : (Handed.source quarterRows).rotation = .ok ⟨⟨0, -1, 0⟩, ⟨1, 0, 0⟩, ⟨0, 0, 1⟩⟩ := by
    decide +kernel
  have hnumber : Scalar.isNaN (⟨⟨0, -1, 0⟩, ⟨1, 0, 0⟩, ⟨0, 0, 1⟩⟩ : Mat3 Float).deviation = false := by
    decide +kernel
  obtain ⟨haccepted, hexact⟩ := Handed.deviation_le_of_accepted
  exact ⟨_, hmatrix, hrotation, hnumber, (haccepted _ _ _ hmatrix hrotation).2 hnumber,
    (hexact Pose.turnedUp).2.2.1.mpr Pose.isMotion_turnedUp.isRigid⟩

/-- A matrix that doubles one length and halves another. -/
def stretchRows : Value :=
  .list [.list [.int 2, .int 0, .int 0], .list [.int 0, .real 0.5, .int 0], .list [.int 0, .int 0, .int 1]]

/-- A matrix can be accepted whose columns are off by three, and a point at one comes back at four. -/
theorem exists_accepted_not_orthogonal : ∃ m : Mat3 Float,
    (Handed.setter stretchRows).matrix? = some m ∧ (Handed.setter stretchRows).rotation = .ok m ∧
      m.defect.row1.x = 3 ∧ (⟨⟨0, 0, 0⟩, m, ""⟩ : Pose Float).toWorld ⟨1, 0, 0⟩ = ⟨2, 0, 0⟩ ∧
      (⟨⟨0, 0, 0⟩, m, ""⟩ : Pose Float).toLocal ⟨2, 0, 0⟩ = ⟨4, 0, 0⟩ := by
  refine ⟨⟨⟨2, 0, 0⟩, ⟨0, 0.5, 0⟩, ⟨0, 0, 1⟩⟩, ?_, ?_, ?_, ?_, ?_⟩ <;> decide +kernel

end Read

/-! ## Stretching -/

namespace Pose

/-- A pose that is longer along one axis and shorter along another, by the same factor. -/
noncomputable def stretched (t : ℝ) : Pose ℝ := ⟨⟨0, 0, 0⟩, ⟨⟨t, 0, 0⟩, ⟨0, t⁻¹, 0⟩, ⟨0, 0, 1⟩⟩, ""⟩

theorem copy_stretched {t : ℝ} (ht : t ≠ 0) : (stretched t).copy = .ok (stretched t) := by
  have hdet : (stretched t).rotation.det = 1 := by
    rw [Mat3.det_eq]
    simp [stretched, Vec3.dot, Vec3.cross, ht]
  rw [copy, make_eq_ok_iff, hdet]
  norm_num

theorem toLocal_toWorld_stretched (t : ℝ) :
    (stretched t).toLocal ((stretched t).toWorld ⟨1, 0, 0⟩) - ⟨1, 0, 0⟩ = ⟨t * t - 1, 0, 0⟩ := by
  simp [stretched, toLocal, toWorld, toMotion, Motion.apply, Mat3.mulVec, Mat3.transpose, Vec3.dot]

/-- However far points may be led from where they were, there is a pose that is accepted and leads one
    further. -/
theorem exists_copy_and_lt_norm (bound : ℝ) : ∃ (p : Pose ℝ) (v : Vec3 ℝ), p.copy = .ok p ∧ v.norm = 1 ∧
    bound < (p.toLocal (p.toWorld v) - v).norm := by
  have hbound := abs_nonneg bound
  refine ⟨stretched (|bound| + 2), ⟨1, 0, 0⟩, copy_stretched (by positivity), ?_, ?_⟩
  · rw [Vec3.norm_eq]
    simp [Vec3.normSq]
  · rw [toLocal_toWorld_stretched]
    calc bound ≤ |bound| := le_abs_self bound
      _ < (|bound| + 2) * (|bound| + 2) - 1 := by nlinarith
      _ ≤ |(|bound| + 2) * (|bound| + 2) - 1| := le_abs_self _
      _ ≤ _ := Vec3.abs_x_le_norm ⟨(|bound| + 2) * (|bound| + 2) - 1, 0, 0⟩

end Pose

end Clearance
