import Clearance.Proofs.Geometry.Composition

/-!
# Turns and quaternions

A turn about an axis is the matrix of a quaternion: the cosine of half the angle, and the sine of it
along the axis. The matrix of a product of quaternions is the product of their matrices, so turns
about one axis add up, and a quaternion of length one, which its conjugate undoes, has an orthogonal
matrix. None of this depends on the axis or on the angles.

* `Quaternion.mul`, `Quaternion.conj`, `Quaternion.normSq`: products, conjugates and lengths.
* `Rotation.ofUnitQuaternion_mul`, `Rotation.isOrthogonal_ofUnitQuaternion`,
  `Rotation.det_ofUnitQuaternion`: matrices of quaternions.
* `Rotation.aboutAxis_eq`: turns as matrices of quaternions, also about the zero vector.
* `Rotation.det_aboutAxis`: turns about an axis have determinant one.
* `Rotation.ofQuaternion_eq_ok`, `Rotation.ofQuaternion_scale`: quaternions of any length but zero.
* `Rotation.turns_of_quaternions`: both descriptions of a rotation follow one convention.
-/

namespace Clearance

/-! ## Quaternions -/

namespace Quaternion

/-- The product of two quaternions. -/
noncomputable def mul (p q : Quaternion ℝ) : Quaternion ℝ :=
  ⟨p.w * q.w - p.x * q.x - p.y * q.y - p.z * q.z, p.w * q.x + p.x * q.w + p.y * q.z - p.z * q.y,
   p.w * q.y - p.x * q.z + p.y * q.w + p.z * q.x, p.w * q.z + p.x * q.y - p.y * q.x + p.z * q.w⟩

/-- The quaternion with the other direction. -/
noncomputable def conj (q : Quaternion ℝ) : Quaternion ℝ := ⟨q.w, -q.x, -q.y, -q.z⟩

/-- A multiple of a quaternion. -/
noncomputable def scale (c : ℝ) (q : Quaternion ℝ) : Quaternion ℝ := ⟨c * q.w, c * q.x, c * q.y, c * q.z⟩

/-- The sum of the squares of the parts. -/
noncomputable def normSq (q : Quaternion ℝ) : ℝ := q.w ^ 2 + q.x ^ 2 + q.y ^ 2 + q.z ^ 2

theorem normSq_nonneg (q : Quaternion ℝ) : 0 ≤ q.normSq := by
  unfold normSq
  positivity

theorem norm_eq (q : Quaternion ℝ) : q.norm = √q.normSq := by
  simp only [norm, normSq, Exact.sqrt_eq, pow_two]

theorem norm_sq (q : Quaternion ℝ) : q.norm ^ 2 = q.normSq := by
  rw [norm_eq, Real.sq_sqrt q.normSq_nonneg]

theorem norm_scale (c : ℝ) (q : Quaternion ℝ) : (q.scale c).norm = |c| * q.norm := by
  have h : (q.scale c).normSq = c ^ 2 * q.normSq := by
    simp only [normSq, scale]
    ring
  rw [norm_eq, norm_eq, h, Real.sqrt_mul (sq_nonneg c), Real.sqrt_sq_eq_abs]

theorem mul_conj (q : Quaternion ℝ) : q.mul q.conj = ⟨q.normSq, 0, 0, 0⟩ := by
  simp only [mul, conj, normSq, Quaternion.mk.injEq]
  refine ⟨?_, ?_, ?_, ?_⟩ <;> ring

theorem normSq_divide_norm {q : Quaternion ℝ} (hq : q.norm ≠ 0) : (q.divide q.norm).normSq = 1 := by
  have h : (q.divide q.norm).normSq = q.normSq / q.norm ^ 2 := by
    simp only [normSq, divide, div_pow]
    ring
  rw [h, ← norm_sq, div_self (pow_ne_zero 2 hq)]

/-- Of a multiple, only the sign is left when it is normalised. -/
theorem divide_norm_scale (q : Quaternion ℝ) (c : ℝ) :
    (q.scale c).divide (q.scale c).norm = (q.divide q.norm).scale (c / |c|) := by
  rw [norm_scale]
  simp only [divide, scale, mul_div_mul_comm]

/-- The quaternion of a turn by an angle about an axis of length one: the cosine of half the angle,
    and the sine of it along the axis. -/
noncomputable def ofTurn (angle : ℝ) (n : Vec3 ℝ) : Quaternion ℝ :=
  ⟨Real.cos (angle / 2), n.x * Real.sin (angle / 2), n.y * Real.sin (angle / 2), n.z * Real.sin (angle / 2)⟩

theorem normSq_ofTurn (angle : ℝ) (n : Vec3 ℝ) :
    (ofTurn angle n).normSq = Real.cos (angle / 2) ^ 2 + n.normSq * Real.sin (angle / 2) ^ 2 := by
  simp only [normSq, ofTurn, Vec3.normSq]
  ring

/-- Turns about one axis add up. -/
theorem ofTurn_mul {n : Vec3 ℝ} (hn : n.normSq = 1) (s t : ℝ) :
    (ofTurn s n).mul (ofTurn t n) = ofTurn (s + t) n := by
  have hunit : n.x ^ 2 + n.y ^ 2 + n.z ^ 2 = 1 := hn
  simp only [mul, ofTurn, add_div, Real.cos_add, Real.sin_add, Quaternion.mk.injEq]
  refine ⟨?_, ?_, ?_, ?_⟩
  · linear_combination (-Real.sin (s / 2) * Real.sin (t / 2)) * hunit
  · ring
  · ring
  · ring

end Quaternion

/-! ## Matrices of quaternions -/

namespace Rotation

theorem ofUnitQuaternion_mul (p q : Quaternion ℝ) :
    (ofUnitQuaternion p).mul (ofUnitQuaternion q) = ofUnitQuaternion (p.mul q) := by
  simp only [ofUnitQuaternion, Quaternion.mul, Mat3.mul, Mat3.vecMul, Mat3.mk.injEq, Vec3.mk.injEq]
  refine ⟨⟨?_, ?_, ?_⟩, ⟨?_, ?_, ?_⟩, ⟨?_, ?_, ?_⟩⟩ <;> ring

theorem transpose_ofUnitQuaternion (q : Quaternion ℝ) :
    (ofUnitQuaternion q).transpose = ofUnitQuaternion q.conj := by
  simp only [ofUnitQuaternion, Quaternion.conj, Mat3.transpose, Mat3.mk.injEq, Vec3.mk.injEq]
  refine ⟨⟨?_, ?_, ?_⟩, ⟨?_, ?_, ?_⟩, ⟨?_, ?_, ?_⟩⟩ <;> ring

theorem isOrthogonal_ofUnitQuaternion {q : Quaternion ℝ} (hq : q.normSq = 1) :
    (ofUnitQuaternion q).IsOrthogonal := by
  rw [Mat3.IsOrthogonal, transpose_ofUnitQuaternion, ofUnitQuaternion_mul, Quaternion.mul_conj, hq]
  simp [ofUnitQuaternion, Mat3.identity]

theorem det_ofUnitQuaternion (q : Quaternion ℝ) : (ofUnitQuaternion q).det = q.normSq ^ 3 := by
  simp only [Mat3.det_eq, ofUnitQuaternion, Quaternion.normSq, Vec3.dot, Vec3.cross]
  ring

/-- A quaternion and the one with all signs changed have the same matrix. -/
theorem ofUnitQuaternion_scale {s : ℝ} (hs : s ^ 2 = 1) (q : Quaternion ℝ) :
    ofUnitQuaternion (q.scale s) = ofUnitQuaternion q := by
  have hsq : ∀ a b : ℝ, s * a * (s * b) = a * b := by
    intro a b
    linear_combination (a * b) * hs
  simp only [ofUnitQuaternion, Quaternion.scale, hsq]

/-! ## Turns -/

/-- A turn is the matrix of its quaternion, whatever the axis is. -/
theorem aboutAxis_eq (angle : ℝ) (axis : Vec3 ℝ) :
    aboutAxis angle axis = ofUnitQuaternion (.ofTurn angle axis.normalize) := by
  simp only [aboutAxis, ofUnitQuaternion, Quaternion.ofTurn, Exact.sin_eq, Exact.cos_eq, Mat3.mk.injEq, Vec3.mk.injEq]
  refine ⟨⟨?_, ?_, ?_⟩, ⟨?_, ?_, ?_⟩, ⟨?_, ?_, ?_⟩⟩ <;> ring

end Rotation

namespace Vec3

variable {v : Vec3 ℝ}

theorem norm_ne_zero (hv : v ≠ ⟨0, 0, 0⟩) : v.norm ≠ 0 := by
  intro hzero
  have hsum : v.x ^ 2 + v.y ^ 2 + v.z ^ 2 = 0 := by
    have h := norm_sq v
    rw [hzero, zero_pow two_ne_zero] at h
    exact h.symm
  exact hv (Vec3.ext (by nlinarith) (by nlinarith) (by nlinarith))

theorem normalize_eq (hv : v ≠ ⟨0, 0, 0⟩) : v.normalize = v.divide v.norm := by
  apply if_neg
  intro h
  exact norm_ne_zero hv ((Exact.eq_iff.mp h).trans Exact.zero_eq)

theorem normSq_normalize (hv : v ≠ ⟨0, 0, 0⟩) : v.normalize.normSq = 1 := by
  have hne := norm_ne_zero hv
  have h : (v.divide v.norm).normSq = v.normSq / v.norm ^ 2 := by
    simp only [normSq, divide, div_pow]
    ring
  rw [normalize_eq hv, h, ← norm_sq, div_self (pow_ne_zero 2 hne)]

theorem norm_normalize (hv : v ≠ ⟨0, 0, 0⟩) : v.normalize.norm = 1 := by
  rw [norm_eq, normSq_normalize hv, Real.sqrt_one]

theorem scale_normalize (hv : v ≠ ⟨0, 0, 0⟩) : v.normalize.scale v.norm = v := by
  have hne := norm_ne_zero hv
  rw [normalize_eq hv]
  simp only [scale, divide, mul_div_cancel₀ _ hne]

end Vec3

namespace Rotation

variable {axis : Vec3 ℝ}

/-- The quaternion of a turn about an axis has length one. -/
theorem normSq_ofTurn_normalize (haxis : axis ≠ ⟨0, 0, 0⟩) (angle : ℝ) :
    (Quaternion.ofTurn angle axis.normalize).normSq = 1 := by
  rw [Quaternion.normSq_ofTurn, Vec3.normSq_normalize haxis, one_mul, Real.cos_sq_add_sin_sq]

/-- A turn about an axis has determinant one. -/
theorem det_aboutAxis (haxis : axis ≠ ⟨0, 0, 0⟩) (angle : ℝ) : (aboutAxis angle axis).det = 1 := by
  rw [aboutAxis_eq, det_ofUnitQuaternion, normSq_ofTurn_normalize haxis, one_pow]

/-- A turn leaves its axis where it is. -/
theorem aboutAxis_mulVec_normalize (haxis : axis ≠ ⟨0, 0, 0⟩) (angle : ℝ) :
    (aboutAxis angle axis).mulVec axis.normalize = axis.normalize := by
  have hunit : axis.normalize.x ^ 2 + axis.normalize.y ^ 2 + axis.normalize.z ^ 2 = 1 := Vec3.normSq_normalize haxis
  have hangle := Real.cos_sq_add_sin_sq (angle / 2)
  rw [aboutAxis_eq]
  generalize axis.normalize = n at hunit
  apply Vec3.ext
  · simp only [Mat3.mulVec, ofUnitQuaternion, Quaternion.ofTurn, Vec3.dot]
    linear_combination (n.x * Real.sin (angle / 2) ^ 2) * hunit + n.x * hangle
  · simp only [Mat3.mulVec, ofUnitQuaternion, Quaternion.ofTurn, Vec3.dot]
    linear_combination (n.y * Real.sin (angle / 2) ^ 2) * hunit + n.y * hangle
  · simp only [Mat3.mulVec, ofUnitQuaternion, Quaternion.ofTurn, Vec3.dot]
    linear_combination (n.z * Real.sin (angle / 2) ^ 2) * hunit + n.z * hangle

/-- Turns about one axis add up. -/
theorem aboutAxis_mul (haxis : axis ≠ ⟨0, 0, 0⟩) (s t : ℝ) :
    (aboutAxis s axis).mul (aboutAxis t axis) = aboutAxis (s + t) axis := by
  rw [aboutAxis_eq, aboutAxis_eq, aboutAxis_eq, ofUnitQuaternion_mul,
    Quaternion.ofTurn_mul (Vec3.normSq_normalize haxis)]

/-! ## Quaternions of any length -/

/-- A quaternion that is not too short is normalised. -/
theorem ofQuaternion_eq_ok {q : Quaternion ℝ} (hq : 1 / 10 ^ 12 ≤ q.norm) :
    ofQuaternion true q = .ok (ofUnitQuaternion (q.divide q.norm)) := by
  have hlong : ¬ Scalar.lt q.norm Quaternion.leastNorm = true := by
    rw [Exact.lt_iff, Quaternion.leastNorm, Exact.trillionth_eq]
    exact not_lt.mpr hq
  unfold ofQuaternion
  rw [if_neg hlong, if_pos rfl]

/-- A quaternion of length one is taken as it is, whether it is to be normalised or not. -/
theorem ofQuaternion_of_unit {q : Quaternion ℝ} (hq : q.normSq = 1) (normalize : Bool) :
    ofQuaternion normalize q = .ok (ofUnitQuaternion q) := by
  have hnorm : q.norm = 1 := by rw [Quaternion.norm_eq, hq, Real.sqrt_one]
  cases normalize with
  | true =>
    rw [ofQuaternion_eq_ok (by rw [hnorm]; norm_num), hnorm]
    simp only [Quaternion.divide, div_one]
  | false =>
    have hlong : ¬ Scalar.lt q.norm Quaternion.leastNorm = true := by
      rw [Exact.lt_iff, Quaternion.leastNorm, Exact.trillionth_eq, hnorm]
      norm_num
    unfold ofQuaternion
    rw [if_neg hlong, if_neg Bool.false_ne_true]
    apply if_pos
    rw [Exact.le_iff, Exact.abs_eq, hnorm, Exact.one_eq, sub_self, abs_zero, Quaternion.unitTolerance,
      Exact.ofScientific_eq, Exact.ofScientific_eq]
    positivity

/-- All multiples of a quaternion stand for one rotation. -/
theorem ofQuaternion_scale {q : Quaternion ℝ} (hq : 1 / 10 ^ 12 ≤ q.norm) {c : ℝ} (hc : c ≠ 0)
    (hcq : 1 / 10 ^ 12 ≤ (q.scale c).norm) : ofQuaternion true (q.scale c) = ofQuaternion true q := by
  have hsign : (c / |c|) ^ 2 = 1 := by
    rw [div_pow, sq_abs, div_self (pow_ne_zero 2 hc)]
  rw [ofQuaternion_eq_ok hcq, ofQuaternion_eq_ok hq, Quaternion.divide_norm_scale,
    ofUnitQuaternion_scale hsign]

/-! ## One convention -/

/-- The turns about an axis, of which `n` is the direction: those of the quaternions along `n`, whether
    these are normalised or not. They leave `n` where it is, and their angles add up. -/
structure TurnsAlong (axis n : Vec3 ℝ) : Prop where
  norm : n.norm = 1
  scale : n.scale axis.norm = axis
  quaternion : ∀ angle normalize, ofQuaternion normalize (.ofTurn angle n) = .ok (aboutAxis angle axis)
  fixes : ∀ angle, (aboutAxis angle axis).mulVec n = n
  mul : ∀ s t, (aboutAxis s axis).mul (aboutAxis t axis) = aboutAxis (s + t) axis

/-- The matrix of a quaternion and of all its multiples: a rotation without reflection, which is
    accepted as the rotation of a pose. -/
structure IsMatrixOf (m : Mat3 ℝ) (q : Quaternion ℝ) : Prop where
  quaternion : ofQuaternion true q = .ok m
  isOrthogonal : m.IsOrthogonal
  det : m.det = 1
  scale : ∀ c ≠ 0, 1 / 10 ^ 12 ≤ (q.scale c).norm → ofQuaternion true (q.scale c) = .ok m
  make : ∀ v name, Pose.make v m name = .ok ⟨v, m, name⟩

theorem turnsAlong_normalize (haxis : axis ≠ ⟨0, 0, 0⟩) : TurnsAlong axis axis.normalize where
  norm := Vec3.norm_normalize haxis
  scale := Vec3.scale_normalize haxis
  quaternion := by
    intro angle normalize
    rw [ofQuaternion_of_unit (normSq_ofTurn_normalize haxis angle), aboutAxis_eq]
  fixes := aboutAxis_mulVec_normalize haxis
  mul := aboutAxis_mul haxis

theorem isMatrixOf_ofUnitQuaternion {q : Quaternion ℝ} (hq : 1 / 10 ^ 12 ≤ q.norm) :
    IsMatrixOf (ofUnitQuaternion (q.divide q.norm)) q := by
  have hpos : 0 < q.norm := lt_of_lt_of_le (by norm_num) hq
  have hunit : (q.divide q.norm).normSq = 1 := Quaternion.normSq_divide_norm hpos.ne'
  have hdet : (ofUnitQuaternion (q.divide q.norm)).det = 1 := by
    rw [det_ofUnitQuaternion, hunit, one_pow]
  refine ⟨ofQuaternion_eq_ok hq, isOrthogonal_ofUnitQuaternion hunit, hdet, ?_, ?_⟩
  · intro c hc hcq
    rw [ofQuaternion_scale hq hc hcq, ofQuaternion_eq_ok hq]
  · intro v name
    apply Pose.make_eq_ok_iff.mpr
    refine ⟨?_, rfl⟩
    rw [hdet]
    norm_num

/-- Angles about an axis and quaternions describe rotations by one convention: the turn by an angle is
    the matrix of the quaternion of half the angle, and every quaternion that is not too short has a
    rotation for its matrix, the same for all its multiples. -/
theorem turns_of_quaternions (haxis : axis ≠ ⟨0, 0, 0⟩) {q : Quaternion ℝ} (hq : 1 / 10 ^ 12 ≤ q.norm) :
    TurnsAlong axis axis.normalize ∧ ∃ m, IsMatrixOf m q :=
  ⟨turnsAlong_normalize haxis, _, isMatrixOf_ofUnitQuaternion hq⟩

/-- Two turns about a slanted axis, and a quaternion that permutes the coordinate axes. -/
theorem turns_of_quaternions_slanted : (⟨1, 2, 2⟩ : Vec3 ℝ) ≠ ⟨0, 0, 0⟩ ∧
    1 / 10 ^ 12 ≤ (⟨1, 1, 1, 1⟩ : Quaternion ℝ).norm ∧
    (aboutAxis 1 ⟨1, 2, 2⟩).mul (aboutAxis 2 ⟨1, 2, 2⟩) = aboutAxis (3 : ℝ) ⟨1, 2, 2⟩ ∧
    ofQuaternion true ⟨1, 1, 1, 1⟩ = .ok (⟨⟨0, 0, 1⟩, ⟨1, 0, 0⟩, ⟨0, 1, 0⟩⟩ : Mat3 ℝ) ∧
    ofQuaternion true ⟨-3, -3, -3, -3⟩ = .ok (⟨⟨0, 0, 1⟩, ⟨1, 0, 0⟩, ⟨0, 1, 0⟩⟩ : Mat3 ℝ) := by
  have hnorm : (⟨1, 1, 1, 1⟩ : Quaternion ℝ).norm = 2 := by
    rw [Quaternion.norm_eq, show (⟨1, 1, 1, 1⟩ : Quaternion ℝ).normSq = 2 ^ 2 by norm_num [Quaternion.normSq]]
    exact Real.sqrt_sq zero_le_two
  have haxis : (⟨1, 2, 2⟩ : Vec3 ℝ) ≠ ⟨0, 0, 0⟩ := by simp
  have hlong : 1 / 10 ^ 12 ≤ (⟨1, 1, 1, 1⟩ : Quaternion ℝ).norm := by
    rw [hnorm]
    norm_num
  obtain ⟨hturns, m, hm⟩ := turns_of_quaternions haxis hlong
  have hmatrix : m = ⟨⟨0, 0, 1⟩, ⟨1, 0, 0⟩, ⟨0, 1, 0⟩⟩ := by
    have h := hm.quaternion
    rw [ofQuaternion_eq_ok hlong, hnorm] at h
    rw [← Except.ok.inj h]
    norm_num [ofUnitQuaternion, Quaternion.divide]
  have hscale : (⟨-3, -3, -3, -3⟩ : Quaternion ℝ) = Quaternion.scale (-3) ⟨1, 1, 1, 1⟩ := by
    simp [Quaternion.scale]
  have hmultiple := hm.scale (-3) (by norm_num) (by rw [Quaternion.norm_scale, hnorm]; norm_num)
  have hsum := hturns.mul 1 2
  norm_num at hsum
  rw [hmatrix] at hm hmultiple
  exact ⟨haxis, hlong, hsum, hm.quaternion, hscale ▸ hmultiple⟩

end Rotation

end Clearance
