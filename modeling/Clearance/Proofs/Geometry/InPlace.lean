import Clearance.Proofs.Geometry.Turning

/-!
# Poses moved in place

A pose that is shifted and turned in place is not checked again. Shifts do not touch its rotation, and
a turn about an axis is a rotation. About the zero vector, which no check refuses, nothing is turned:
the matrix only shrinks space, by the square of the length of the quaternion that stands for the turn.
The shrinkages of a sequence of moves multiply, whatever stands between them.

* `Pose.Move`, `Pose.moveAll`: shifts and turns, along the axes of the pose or of the world.
* `Pose.Move.shrinkage`, `Pose.Move.IsRigid`: what a move does to lengths.
* `Pose.ShrunkBy`, `Pose.ShrunkBy.move`, `Pose.ShrunkBy.moveAll`: the invariant, kept by one move and
  by all of them.
* `Pose.isMotion_moveAll_iff`: which sequences of moves keep a pose rigid.
-/

namespace Clearance

/-! ## Shrunk rotations -/

namespace Mat3

/-- The matrix with all entries multiplied by a number. -/
noncomputable def scale (c : ℝ) (m : Mat3 ℝ) : Mat3 ℝ := ⟨m.row1.scale c, m.row2.scale c, m.row3.scale c⟩

@[simp] theorem scale_one (m : Mat3 ℝ) : m.scale 1 = m := by
  simp [scale, Vec3.scale]

theorem scale_mul_scale (a b : ℝ) (m n : Mat3 ℝ) : (m.scale a).mul (n.scale b) = (m.mul n).scale (a * b) := by
  simp only [scale, Vec3.scale, mul, vecMul, Mat3.mk.injEq, Vec3.mk.injEq]
  refine ⟨⟨?_, ?_, ?_⟩, ⟨?_, ?_, ?_⟩, ⟨?_, ?_, ?_⟩⟩ <;> ring

theorem det_scale (c : ℝ) (m : Mat3 ℝ) : (m.scale c).det = c ^ 3 * m.det := by
  simp only [det_eq, scale, Vec3.scale, Vec3.dot, Vec3.cross]
  ring

end Mat3

/-- The matrix of a quaternion is a rotation, shrunk by the square of the length. -/
theorem Rotation.exists_ofUnitQuaternion_eq (q : Quaternion ℝ) :
    ∃ m : Mat3 ℝ, m.IsOrthogonal ∧ m.det = 1 ∧ ofUnitQuaternion q = m.scale q.normSq := by
  by_cases hq : q.normSq = 0
  · have hsum : q.w ^ 2 + q.x ^ 2 + q.y ^ 2 + q.z ^ 2 = 0 := hq
    have hw : q.w = 0 := by nlinarith
    have hx : q.x = 0 := by nlinarith
    have hy : q.y = 0 := by nlinarith
    have hz : q.z = 0 := by nlinarith
    refine ⟨Mat3.identity, Mat3.isOrthogonal_identity, Mat3.det_identity, ?_⟩
    simp [ofUnitQuaternion, Mat3.scale, Vec3.scale, hq, hw, hx, hy, hz]
  · have hne : q.norm ≠ 0 := by
      intro h
      rw [← Quaternion.norm_sq, h, zero_pow two_ne_zero] at hq
      exact hq rfl
    have hunit := Quaternion.normSq_divide_norm hne
    refine ⟨_, isOrthogonal_ofUnitQuaternion hunit, by rw [det_ofUnitQuaternion, hunit, one_pow], ?_⟩
    rw [← Quaternion.norm_sq]
    simp only [ofUnitQuaternion, Quaternion.divide, Mat3.scale, Vec3.scale, Mat3.mk.injEq, Vec3.mk.injEq]
    refine ⟨⟨?_, ?_, ?_⟩, ⟨?_, ?_, ?_⟩, ⟨?_, ?_, ?_⟩⟩ <;> field_simp

/-- Numbers between zero and one have the product one only if they are all one. -/
theorem prod_eq_one_iff {xs : List ℝ} (h : ∀ x ∈ xs, 0 ≤ x ∧ x ≤ 1) :
    0 ≤ xs.prod ∧ xs.prod ≤ 1 ∧ (xs.prod = 1 ↔ ∀ x ∈ xs, x = 1) := by
  induction xs with
  | nil => simp
  | cons x xs ih =>
    obtain ⟨hpos, hle, hiff⟩ := ih fun y hy => h y (List.mem_cons_of_mem _ hy)
    obtain ⟨hx, hx1⟩ := h x List.mem_cons_self
    rw [List.prod_cons, List.forall_mem_cons, ← hiff]
    refine ⟨mul_nonneg hx hpos, mul_le_one₀ hx1 hpos hle, ?_, ?_⟩
    · intro hone
      have hx2 : x = 1 := by nlinarith
      rw [hx2, one_mul] at hone
      exact ⟨hx2, hone⟩
    · rintro ⟨hx2, hone⟩
      rw [hx2, hone, one_mul]

/-! ## Moves -/

namespace Pose

/-- A shift or a turn in place. -/
inductive Move (α : Type) where
  | translate (v : Vec3 α) (frame : Frame)
  | rotate (angle : α) (axis : Vec3 α) (frame : Frame)

section

variable {α : Type} [Scalar α]

/-- The pose after a move. Of a shift the vector is checked; of a turn nothing is. -/
def move (p : Pose α) : Move α → Except (Error α) (Pose α)
  | .translate v frame => (checkPosition v).map (p.translate · frame)
  | .rotate angle axis frame => .ok (p.rotate angle axis frame)

/-- The pose after some moves. -/
def moveAll (p : Pose α) (moves : List (Move α)) : Except (Error α) (Pose α) := moves.foldlM move p

end

/-- How much a move shrinks space: a shift not at all, a turn by the square of the length of its
    quaternion. -/
noncomputable def Move.shrinkage : Move ℝ → ℝ
  | .translate _ _ => 1
  | .rotate angle axis _ => (Quaternion.ofTurn angle axis.normalize).normSq

/-- A move that does not turn about the zero vector, unless by whole turns. -/
def Move.IsRigid : Move ℝ → Prop
  | .translate _ _ => True
  | .rotate angle axis _ => axis = ⟨0, 0, 0⟩ → Real.cos (angle / 2) ^ 2 = 1

theorem shrinkage_rotate_zero (angle : ℝ) (frame : Frame) :
    (Move.rotate angle ⟨0, 0, 0⟩ frame).shrinkage = Real.cos (angle / 2) ^ 2 := by
  have hzero : (⟨0, 0, 0⟩ : Vec3 ℝ).normalize.normSq = 0 := by
    simp [Vec3.normalize, Vec3.norm_eq, Vec3.normSq, Vec3.divide]
  rw [Move.shrinkage, Quaternion.normSq_ofTurn, hzero, zero_mul, add_zero]

theorem shrinkage_rotate {axis : Vec3 ℝ} (haxis : axis ≠ ⟨0, 0, 0⟩) (angle : ℝ) (frame : Frame) :
    (Move.rotate angle axis frame).shrinkage = 1 :=
  Rotation.normSq_ofTurn_normalize haxis angle

theorem shrinkage_eq_one_iff (m : Move ℝ) : m.shrinkage = 1 ↔ m.IsRigid := by
  cases m with
  | translate v frame => exact iff_of_true rfl trivial
  | rotate angle axis frame =>
    by_cases haxis : axis = ⟨0, 0, 0⟩
    · subst haxis
      rw [shrinkage_rotate_zero]
      exact ⟨fun h _ => h, fun h => h rfl⟩
    · exact iff_of_true (shrinkage_rotate haxis angle frame) fun h => absurd h haxis

theorem shrinkage_between (m : Move ℝ) : 0 ≤ m.shrinkage ∧ m.shrinkage ≤ 1 := by
  cases m with
  | translate v frame => exact ⟨zero_le_one, le_rfl⟩
  | rotate angle axis frame =>
    by_cases haxis : axis = ⟨0, 0, 0⟩
    · subst haxis
      rw [shrinkage_rotate_zero]
      exact ⟨sq_nonneg _, Real.cos_sq_le_one _⟩
    · rw [shrinkage_rotate haxis]
      exact ⟨zero_le_one, le_rfl⟩

/-- A turn about a named axis is rigid. -/
theorem isRigid_of_axisNamed {name : String} {axis : Vec3 ℝ} (h : Rotation.axisNamed? name = some axis)
    (angle : ℝ) (frame : Frame) : (Move.rotate angle axis frame).IsRigid := by
  intro hzero
  subst hzero
  unfold Rotation.axisNamed? at h
  split at h <;> simp at h

/-! ## The invariant -/

/-- The rotation of the pose is orthogonal and no reflection, but for a factor by which it shrinks
    space. -/
def ShrunkBy (c : ℝ) (p : Pose ℝ) : Prop := ∃ m : Mat3 ℝ, m.IsOrthogonal ∧ m.det = 1 ∧ p.rotation = m.scale c

namespace ShrunkBy

variable {c : ℝ} {p q : Pose ℝ}

theorem of_isMotion (hp : p.IsMotion) : ShrunkBy 1 p := ⟨p.rotation, hp.isRigid, hp.det, (Mat3.scale_one _).symm⟩

theorem det (h : ShrunkBy c p) : p.rotation.det = c ^ 3 := by
  obtain ⟨m, -, hdet, hm⟩ := h
  rw [hm, Mat3.det_scale, hdet, mul_one]

theorem isMotion_iff (h : ShrunkBy c p) : p.IsMotion ↔ c = 1 := by
  constructor
  · intro hp
    have hone : c ^ 3 = 1 := by rw [← h.det, hp.det]
    nlinarith [sq_nonneg (c + 1), sq_nonneg c]
  · rintro rfl
    obtain ⟨m, horthogonal, hdet, hm⟩ := h
    rw [Mat3.scale_one] at hm
    exact ⟨by rw [Pose.IsRigid, hm]; exact horthogonal, by rw [hm, hdet]⟩

/-- The pose passes the check of its rotation as far as it is not shrunk. -/
theorem copy_iff (h : ShrunkBy c p) (hc : c ≤ 1) (hpos : 0 ≤ c) : p.copy = .ok p ↔ 1 - c ^ 3 ≤ 1 / 1000 := by
  have hle : c ^ 3 ≤ 1 := pow_le_one₀ hpos hc
  rw [copy, make_eq_ok_iff, h.det, abs_sub_comm, abs_of_nonneg (by linarith)]
  exact and_iff_left rfl

/-- One move shrinks space by its own factor. -/
theorem move (h : ShrunkBy c p) (m : Move ℝ) : ∃ q, p.move m = .ok q ∧ ShrunkBy (c * m.shrinkage) q := by
  obtain ⟨r, horthogonal, hdet, hr⟩ := h
  cases m with
  | translate v frame =>
    refine ⟨p.translate v frame, by rw [Pose.move, checkPosition_eq]; rfl, r, horthogonal, hdet, ?_⟩
    rw [Move.shrinkage, mul_one, ← hr]
    cases frame <;> rfl
  | rotate angle axis frame =>
    obtain ⟨s, hs, hsdet, hturn⟩ := Rotation.exists_ofUnitQuaternion_eq (.ofTurn angle axis.normalize)
    rw [← Rotation.aboutAxis_eq] at hturn
    refine ⟨p.rotate angle axis frame, rfl, ?_⟩
    cases frame with
    | own =>
      refine ⟨r.mul s, horthogonal.mul hs, by rw [Mat3.det_mul, hdet, hsdet, one_mul], ?_⟩
      rw [rotate, hr, hturn, Mat3.scale_mul_scale]
      rfl
    | world =>
      refine ⟨s.mul r, hs.mul horthogonal, by rw [Mat3.det_mul, hdet, hsdet, one_mul], ?_⟩
      rw [rotate, hr, hturn, Mat3.scale_mul_scale, mul_comm c]
      rfl

/-- The factors of all moves multiply. -/
theorem moveAll (h : ShrunkBy c p) (moves : List (Move ℝ)) :
    ∃ q, p.moveAll moves = .ok q ∧ ShrunkBy (c * (moves.map Move.shrinkage).prod) q := by
  induction moves generalizing c p with
  | nil => exact ⟨p, rfl, by simpa using h⟩
  | cons m moves ih =>
    obtain ⟨next, hnext, hshrunk⟩ := h.move m
    obtain ⟨q, hq, hend⟩ := ih hshrunk
    refine ⟨q, ?_, ?_⟩
    · rw [Pose.moveAll, List.foldlM_cons]
      exact bind_eq_ok.mpr ⟨next, hnext, hq⟩
    · rw [List.map_cons, List.prod_cons, ← mul_assoc]
      exact hend

end ShrunkBy

/-! ## Moving a rigid pose -/

/-- With a rigid pose everything accepted can be composed, and it can be copied and inverted. -/
theorem IsMotion.succeeds {p : Pose ℝ} (hp : p.IsMotion) :
    p.copy = .ok p ∧ (∃ back, p.inverse = .ok back) ∧ ∀ c, c.copy = .ok c → ∃ r, p.transform c = .ok r := by
  refine ⟨?_, ?_, ?_⟩
  · apply make_eq_ok_iff.mpr
    rw [hp.det]
    norm_num
  · rw [inverse_eq_ofMotion, ofMotion_eq_ok hp.isProper.inverse]
    exact ⟨_, rfl⟩
  · intro c hc
    rw [transform_eq hp, hc]
    exact ⟨_, rfl⟩

/-- Moving a rigid pose in place succeeds, and keeps it rigid unless it is turned about the zero vector
    by other than whole turns. It can be copied as far as it is not shrunk, and as long as it is rigid
    it can be inverted and composed with. -/
theorem isMotion_moveAll_iff {p : Pose ℝ} (hp : p.IsMotion) (moves : List (Move ℝ)) :
    ∃ q, p.moveAll moves = .ok q ∧ (q.IsMotion ↔ ∀ m ∈ moves, m.IsRigid) ∧
      (q.copy = .ok q ↔ 1 - (moves.map Move.shrinkage).prod ^ 3 ≤ 1 / 1000) ∧
      (q.IsMotion → q.copy = .ok q ∧ (∃ back, q.inverse = .ok back) ∧
        ∀ c, c.copy = .ok c → ∃ r, q.transform c = .ok r) ∧
      ∀ name axis angle frame, Rotation.axisNamed? name = some axis → (Move.rotate angle axis frame).IsRigid := by
  obtain ⟨q, hq, hshrunk⟩ := (ShrunkBy.of_isMotion hp).moveAll moves
  rw [one_mul] at hshrunk
  have hbetween : ∀ x ∈ moves.map Move.shrinkage, 0 ≤ x ∧ x ≤ 1 := by
    intro x hx
    obtain ⟨m, -, rfl⟩ := List.mem_map.mp hx
    exact shrinkage_between m
  obtain ⟨hpos, hle, hone⟩ := prod_eq_one_iff hbetween
  refine ⟨q, hq, ?_, hshrunk.copy_iff hle hpos, IsMotion.succeeds, ?_⟩
  · rw [hshrunk.isMotion_iff, hone, List.forall_mem_map]
    exact forall₂_congr fun m _ => shrinkage_eq_one_iff m
  · intro name axis angle frame h
    exact isRigid_of_axisNamed h angle frame

/-- Shifts and turns about axes of any length, along the axes of the pose and of the world. -/
noncomputable def handling : List (Move ℝ) :=
  [.translate ⟨0, 0, 2⟩ .own, .rotate 1 ⟨3, 0, -4⟩ .own, .translate ⟨1, 1, 0⟩ .world,
    .rotate (-5) ⟨0, 1 / 9, 0⟩ .world, .rotate (2 * Real.pi) ⟨0, 0, 0⟩ .own]

/-- A turntable that is handled so is still rigid, and can be copied. -/
theorem isMotion_moveAll_turned : turnedUp.IsMotion ∧ ∃ q, turnedUp.moveAll handling = .ok q ∧ q.IsMotion ∧
    q.copy = .ok q := by
  obtain ⟨q, hq, hiff, -, hsucceeds, -⟩ := isMotion_moveAll_iff isMotion_turnedUp handling
  have hrigid : q.IsMotion := by
    apply hiff.mpr
    intro m hm
    simp only [handling, List.mem_cons, List.not_mem_nil, or_false] at hm
    rcases hm with rfl | rfl | rfl | rfl | rfl
    · trivial
    · intro h
      norm_num at h
    · trivial
    · intro h
      norm_num at h
    · intro _
      rw [mul_div_cancel_left₀ _ two_ne_zero, Real.cos_pi]
      norm_num
  exact ⟨isMotion_turnedUp, q, hq, hrigid, (hsucceeds hrigid).1⟩

/-- Half a turn about the zero vector leaves nothing of the rotation, and the pose cannot be copied. -/
theorem exists_pose_not_copied : (origin : Pose ℝ).IsMotion ∧
    ∃ q : Pose ℝ, origin.moveAll [.rotate Real.pi ⟨0, 0, 0⟩ .own] = .ok q ∧ ¬ q.IsMotion ∧ q.copy ≠ .ok q := by
  have horigin : (origin : Pose ℝ).IsMotion := ⟨isRigid_origin, Mat3.det_identity⟩
  obtain ⟨q, hq, hshrunk⟩ := (ShrunkBy.of_isMotion horigin).moveAll [.rotate Real.pi ⟨0, 0, 0⟩ .own]
  have hzero : (1 : ℝ) * (List.map Move.shrinkage [.rotate Real.pi ⟨0, 0, 0⟩ .own]).prod = 0 := by
    rw [List.map_singleton, List.prod_singleton, shrinkage_rotate_zero, Real.cos_pi_div_two]
    norm_num
  rw [hzero] at hshrunk
  refine ⟨horigin, q, hq, ?_, ?_⟩
  · rw [hshrunk.isMotion_iff]
    exact zero_ne_one
  · rw [Ne, hshrunk.copy_iff zero_le_one le_rfl]
    norm_num

end Pose

end Clearance
