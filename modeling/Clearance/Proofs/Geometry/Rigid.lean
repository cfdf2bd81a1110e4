import Mathlib.Analysis.InnerProductSpace.PiL2
import Clearance.Geometry.Pose
import Clearance.Proofs.Number.Exact

/-!
# Rigid motions in exact arithmetic

Lengths of vectors of real numbers satisfy the triangle inequality, and poses with an orthogonal
rotation keep lengths and can be undone.

* `Vec3.norm_sub_le`, `Vec3.dot_sq_le`: the inequalities of the triangle and of Cauchy and Schwarz.
* `Mat3.IsOrthogonal`, `Mat3.norm_vecMul`: orthogonal matrices keep lengths.
* `Pose.IsRigid`, `Pose.norm_rowToLocal_sub`, `Pose.applyRow_rowToLocal`: rigid poses.
-/

namespace Clearance

/-! ## Vectors -/

namespace Vec3

@[simp] theorem add_def (u v : Vec3 ℝ) : u + v = ⟨u.x + v.x, u.y + v.y, u.z + v.z⟩ := rfl

@[simp] theorem sub_def (u v : Vec3 ℝ) : u - v = ⟨u.x - v.x, u.y - v.y, u.z - v.z⟩ := rfl

@[simp] theorem neg_def (v : Vec3 ℝ) : -v = ⟨-v.x, -v.y, -v.z⟩ := rfl

/-- The sum of the squares of the coordinates. -/
def normSq (v : Vec3 ℝ) : ℝ := v.x ^ 2 + v.y ^ 2 + v.z ^ 2

theorem norm_eq (v : Vec3 ℝ) : v.norm = √v.normSq := by
  simp only [norm, dot, normSq, Exact.sqrt_eq, pow_two]

theorem normSq_nonneg (v : Vec3 ℝ) : 0 ≤ v.normSq := by
  unfold normSq
  positivity

theorem norm_sq (v : Vec3 ℝ) : v.norm ^ 2 = v.normSq := by
  rw [norm_eq, Real.sq_sqrt (normSq_nonneg v)]

theorem norm_nonneg (v : Vec3 ℝ) : 0 ≤ v.norm := by
  rw [norm_eq]
  exact Real.sqrt_nonneg _

theorem norm_le_iff {v : Vec3 ℝ} {r : ℝ} (hr : 0 ≤ r) : v.norm ≤ r ↔ v.normSq ≤ r ^ 2 := by
  rw [norm_eq, Real.sqrt_le_left hr]

theorem norm_le_norm {u v : Vec3 ℝ} (h : u.normSq ≤ v.normSq) : u.norm ≤ v.norm := by
  rw [norm_eq, norm_eq]
  exact Real.sqrt_le_sqrt h

/-- The inequality of Cauchy and Schwarz. -/
theorem dot_sq_le (u v : Vec3 ℝ) : u.dot v ^ 2 ≤ u.normSq * v.normSq := by
  have h := normSq_nonneg (u.cross v)
  simp only [normSq, cross, dot] at h ⊢
  linarith

theorem abs_x_le_norm (v : Vec3 ℝ) : |v.x| ≤ v.norm := by
  rw [norm_eq]
  exact Real.abs_le_sqrt (by unfold normSq; nlinarith [sq_nonneg v.y, sq_nonneg v.z])

theorem abs_y_le_norm (v : Vec3 ℝ) : |v.y| ≤ v.norm := by
  rw [norm_eq]
  exact Real.abs_le_sqrt (by unfold normSq; nlinarith [sq_nonneg v.x, sq_nonneg v.z])

theorem abs_z_le_norm (v : Vec3 ℝ) : |v.z| ≤ v.norm := by
  rw [norm_eq]
  exact Real.abs_le_sqrt (by unfold normSq; nlinarith [sq_nonneg v.x, sq_nonneg v.y])

theorem norm_onAxis (t : ℝ) : (⟨0, 0, t⟩ : Vec3 ℝ).norm = |t| := by
  rw [norm_eq, normSq, zero_pow two_ne_zero, zero_add, zero_add, Real.sqrt_sq_eq_abs]

theorem norm_diagonal (t : ℝ) : (⟨t, t, t⟩ : Vec3 ℝ).norm = √3 * |t| := by
  rw [norm_eq, normSq, ← Real.sqrt_sq_eq_abs, ← Real.sqrt_mul (by norm_num)]
  congr 1
  ring

theorem norm_neg (v : Vec3 ℝ) : (-v).norm = v.norm := by
  rw [norm_eq, norm_eq]
  congr 1
  simp only [normSq, neg_def]
  ring

theorem ne_neg_of_norm_eq_one {v : Vec3 ℝ} (h : v.norm = 1) : v ≠ -v := by
  intro heq
  have hz : v = ⟨0, 0, 0⟩ := Vec3.ext (self_eq_neg.mp (congrArg Vec3.x heq)) (self_eq_neg.mp (congrArg Vec3.y heq))
    (self_eq_neg.mp (congrArg Vec3.z heq))
  rw [hz, norm_onAxis, abs_zero] at h
  exact zero_ne_one h

/-- The vector as one of the Euclidean space. -/
noncomputable def toEuclidean (v : Vec3 ℝ) : EuclideanSpace ℝ (Fin 3) := WithLp.toLp _ ![v.x, v.y, v.z]

theorem norm_toEuclidean (v : Vec3 ℝ) : ‖v.toEuclidean‖ = v.norm := by
  rw [norm_eq, EuclideanSpace.norm_eq, Fin.sum_univ_three]
  simp [toEuclidean, normSq]

/-- The triangle inequality. -/
theorem norm_sub_le (a b c : Vec3 ℝ) : (a - c).norm ≤ (a - b).norm + (b - c).norm := by
  have h : (a - c).toEuclidean = (a - b).toEuclidean + (b - c).toEuclidean := by
    ext i
    fin_cases i <;> simp [toEuclidean]
  rw [← norm_toEuclidean, ← norm_toEuclidean, ← norm_toEuclidean, h]
  exact norm_add_le _ _

theorem norm_sub_comm (a b : Vec3 ℝ) : (a - b).norm = (b - a).norm := by
  rw [norm_eq, norm_eq]
  congr 1
  simp only [normSq, sub_def]
  ring

theorem norm_sub_self (a : Vec3 ℝ) : (a - a).norm = 0 := by
  rw [norm_eq]
  simp [normSq]

end Vec3

/-! ## Orthogonal matrices -/

namespace Mat3

/-- A matrix is orthogonal if its rows are: its transpose is its inverse. -/
def IsOrthogonal (m : Mat3 ℝ) : Prop := m.mul m.transpose = identity

/-- The matrix as a matrix of Mathlib's. -/
def toMatrix (m : Mat3 ℝ) : Matrix (Fin 3) (Fin 3) ℝ :=
  !![m.row1.x, m.row1.y, m.row1.z; m.row2.x, m.row2.y, m.row2.z; m.row3.x, m.row3.y, m.row3.z]

theorem toMatrix_mul (m n : Mat3 ℝ) : (m.mul n).toMatrix = m.toMatrix * n.toMatrix := by
  ext i j
  fin_cases i <;> fin_cases j <;> simp [toMatrix, mul, vecMul, Matrix.mul_apply, Fin.sum_univ_three]

theorem toMatrix_identity : (identity : Mat3 ℝ).toMatrix = 1 := by
  ext i j
  fin_cases i <;> fin_cases j <;> simp [toMatrix, identity]

theorem toMatrix_injective {m n : Mat3 ℝ} (h : m.toMatrix = n.toMatrix) : m = n := by
  have entry := fun i j => congrFun (congrFun h i) j
  have h1 : m.row1 = n.row1 := Vec3.ext (entry 0 0) (entry 0 1) (entry 0 2)
  have h2 : m.row2 = n.row2 := Vec3.ext (entry 1 0) (entry 1 1) (entry 1 2)
  have h3 : m.row3 = n.row3 := Vec3.ext (entry 2 0) (entry 2 1) (entry 2 2)
  rw [show m = ⟨m.row1, m.row2, m.row3⟩ from rfl, h1, h2, h3]

/-- The columns of an orthogonal matrix are orthogonal too. -/
theorem IsOrthogonal.transpose {m : Mat3 ℝ} (h : m.IsOrthogonal) : m.transpose.IsOrthogonal := by
  refine toMatrix_injective ?_
  rw [transpose_transpose, toMatrix_mul, toMatrix_identity]
  refine mul_eq_one_comm.mp ?_
  rw [← toMatrix_mul, h, toMatrix_identity]

theorem isOrthogonal_identity : (identity : Mat3 ℝ).IsOrthogonal := by
  simp [IsOrthogonal, identity, Mat3.transpose, mul, vecMul]

theorem det_identity : (identity : Mat3 ℝ).det = 1 := by
  have h1 : Scalar.lt (1:ℝ) 0 = false := by rw [← Bool.not_eq_true, Exact.lt_iff]; norm_num
  have h2 : Scalar.eq (1:ℝ) 0 = false := by rw [← Bool.not_eq_true, Exact.eq_iff]; norm_num
  simp [det, identity, displaces, eliminate, det2, h1, h2]

theorem vecMul_vecMul (v : Vec3 ℝ) (m n : Mat3 ℝ) : vecMul (vecMul v m) n = vecMul v (m.mul n) := by
  simp only [vecMul, mul, Vec3.mk.injEq]
  refine ⟨?_, ?_, ?_⟩ <;> ring

theorem vecMul_identity (v : Vec3 ℝ) : vecMul v identity = v := by
  simp [vecMul, identity]

theorem identity_mul (m : Mat3 ℝ) : identity.mul m = m := by
  simp [mul, vecMul, identity]

theorem vecMul_sub (u v : Vec3 ℝ) (m : Mat3 ℝ) : vecMul (u - v) m = vecMul u m - vecMul v m := by
  simp only [vecMul, Vec3.sub_def, Vec3.mk.injEq]
  refine ⟨?_, ?_, ?_⟩ <;> ring

/-- A matrix applied to a column is its transpose applied to a row. -/
theorem mulVec_eq_vecMul (m : Mat3 ℝ) (v : Vec3 ℝ) : m.mulVec v = vecMul v m.transpose := by
  simp only [mulVec, vecMul, Vec3.dot, Mat3.transpose, Vec3.mk.injEq]
  refine ⟨?_, ?_, ?_⟩ <;> ring

theorem normSq_vecMul (v : Vec3 ℝ) (m : Mat3 ℝ) :
    (vecMul v m).normSq = v.dot (vecMul v (m.mul m.transpose)) := by
  simp only [Vec3.normSq, vecMul, Vec3.dot, mul, Mat3.transpose]
  ring

/-- Orthogonal matrices keep lengths. -/
theorem norm_vecMul {m : Mat3 ℝ} (h : m.IsOrthogonal) (v : Vec3 ℝ) :
    (vecMul v m).norm = v.norm := by
  rw [Vec3.norm_eq, normSq_vecMul, h, vecMul_identity]
  rfl

end Mat3

/-! ## Rigid poses -/

namespace Pose

/-- A pose is rigid if its rotation is orthogonal. -/
def IsRigid (p : Pose ℝ) : Prop := p.rotation.IsOrthogonal

theorem isRigid_origin : (origin : Pose ℝ).IsRigid := Mat3.isOrthogonal_identity

/-- A pose that does not turn passes the checks. -/
theorem make_identity (v : Vec3 ℝ) (name : String) :
    make v Mat3.identity name = .ok ⟨v, Mat3.identity, name⟩ := by
  refine make_eq_ok.mpr ⟨if_neg ?_, if_pos ?_, rfl⟩
  · rw [Mat3.det_identity, Exact.lt_iff]
    simp [determinantTolerance]
  · simp [Vec3.isFinite, Vec3.all]

/-- The origin passes the checks of a copy. -/
theorem toPose_origin : (PoseSource.pose origin).toPose = (.ok origin : Except (Error ℝ) _) :=
  make_identity _ _

/-- Poses that do not turn compose to one that does not. -/
theorem transform_of_identity (u v : Vec3 ℝ) (a b : String) :
    (⟨u, Mat3.identity, a⟩ : Pose ℝ).transform ⟨v, Mat3.identity, b⟩ =
      .ok ⟨u + Mat3.identity.mulVec v, Mat3.identity, ""⟩ := by
  unfold transform
  rw [Mat3.identity_mul]
  exact make_identity _ _

@[simp] theorem rowToLocal_origin (v : Vec3 ℝ) : (origin : Pose ℝ).rowToLocal v = v := by
  simp [rowToLocal, origin, Mat3.vecMul, Mat3.identity]

@[simp] theorem applyRow_origin (v : Vec3 ℝ) : (origin : Pose ℝ).toMotion.applyRow v = v := by
  simp [Motion.applyRow, toMotion, origin, Mat3.vecMul, Mat3.identity, Mat3.transpose]

variable {p : Pose ℝ}

/-- Seen from a rigid pose, points are as far apart as in the world. -/
theorem norm_rowToLocal_sub (hp : p.IsRigid) (u v : Vec3 ℝ) :
    (p.rowToLocal u - p.rowToLocal v).norm = (u - v).norm := by
  have h : p.rowToLocal u - p.rowToLocal v = Mat3.vecMul (u - v) p.rotation := by
    rw [rowToLocal, rowToLocal, ← Mat3.vecMul_sub]
    simp
  rw [h, Mat3.norm_vecMul hp]

theorem norm_applyRow_sub (hp : p.IsRigid) (u v : Vec3 ℝ) :
    (p.toMotion.applyRow u - p.toMotion.applyRow v).norm = (u - v).norm := by
  have h : p.toMotion.applyRow u - p.toMotion.applyRow v =
      Mat3.vecMul (u - v) p.rotation.transpose := by
    rw [Motion.applyRow, Motion.applyRow, Mat3.vecMul_sub]
    simp [toMotion]
  rw [h, Mat3.norm_vecMul (Mat3.IsOrthogonal.transpose hp)]

/-- A direction that is seen from a rigid pose keeps its length in the world. -/
theorem norm_rotateRow (hp : p.IsRigid) (v : Vec3 ℝ) : (p.toMotion.rotateRow v).norm = v.norm :=
  Mat3.norm_vecMul (Mat3.IsOrthogonal.transpose hp) v

/-- Seen from a rigid pose and then again in the world, a point is where it was. -/
theorem applyRow_rowToLocal (hp : p.IsRigid) (v : Vec3 ℝ) :
    p.toMotion.applyRow (p.rowToLocal v) = v := by
  rw [Motion.applyRow, rowToLocal, toMotion, Mat3.vecMul_vecMul,
    show p.rotation.mul p.rotation.transpose = _ from hp, Mat3.vecMul_identity]
  simp

theorem rowToLocal_applyRow (hp : p.IsRigid) (v : Vec3 ℝ) :
    p.rowToLocal (p.toMotion.applyRow v) = v := by
  have h : p.toMotion.applyRow v - p.position = Mat3.vecMul v p.rotation.transpose := by
    simp [Motion.applyRow, toMotion]
  have h' : p.rotation.transpose.mul p.rotation = Mat3.identity := Mat3.IsOrthogonal.transpose hp
  rw [rowToLocal, h, Mat3.vecMul_vecMul, h', Mat3.vecMul_identity]

/-- A point taken to the world as a column is where it is as a row. -/
theorem toWorld_eq_applyRow (p : Pose ℝ) (v : Vec3 ℝ) : p.toWorld v = p.toMotion.applyRow v := by
  rw [toWorld, Motion.apply, Motion.applyRow, Mat3.mulVec_eq_vecMul]

end Pose

end Clearance
