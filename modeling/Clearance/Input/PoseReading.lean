import Clearance.Input.Value
import Clearance.Geometry.Pose

/-!
# Reading poses

Axes, rotations, positions and poses from loosely typed values.

* `Read.axis`: the name of a coordinate axis, or three numbers.
* `Read.rotation`: a matrix, the three angles yaw, pitch and roll, or a quaternion.
* `Read.pose`: a pose from a position and a rotation, or from a homogeneous four by four matrix.
* `Read.poseSource`, `Read.arraysSource`: what may stand where a pose belongs.
* `Read.copy_of_pose`, `Read.copy_of_homogeneousPose`: a pose that was read can be copied.
-/

namespace Clearance

namespace Read

/-! ## Vectors -/

/-- A vector along an axis. -/
def axis (v : Value) : Except (Error Float) (Vec3 Float) :=
  match v with
  | .text name =>
    match Rotation.axisNamed? name with
    | some a => .ok a
    | none => .error (.axisName name)
  | v => do
    let t ← v.toTensor
    match t.toVec3? with
    | some a => return a
    | none => throw (.axisShape t.shape)

/-- A vector divided by its norm of a given order: the sum of the powers of that order, the
    greatest or least size for an infinite order, the count of the entries that are not zero for
    order zero. -/
def norm (order : Float) (xs : List Float) : Except Fault Float :=
  let sizes := xs.map Float.abs
  if order == 2 then .ok (Scalar.sum (xs.map fun x => x * x)).sqrt
  else if order == 1.0 / 0.0 then .ok ((Scalar.maximum sizes).getD 0)
  else if order == -1.0 / 0.0 then
    match Scalar.minimum sizes with
    | some least => .ok least
    | none => .error .value
  else if order == 0 then .ok (Float.ofNat (xs.countP fun x => !(x == 0)))
  else if order == 1 then .ok (Scalar.sum sizes)
  else .ok ((Scalar.sum (sizes.map (Float.pow · order))).pow (1 / order))

/-- A list of numbers divided by its norm; one whose norm is zero is handed back unchanged. -/
def normalized (order : Float) (v : Value) : Except (Error Float) (Tensor Float) := do
  let t ← v.toTensor
  if t.rank != 1 then throw (.fault .value)
  let n ← norm order t.data.toList
  return if n == 0 then t else t.map (· / n)

/-- A position: three numbers, standing in any number of axes of length one besides. -/
def position (v : Value) : Except (Error Float) (Vec3 Float) := do
  if v.shape?.isNone then throw (.fault .value)
  if !v.isNumeric then throw .positionNotNumeric
  let t ← v.toTensor
  match t.squeeze.toVec3? with
  | some p => Pose.checkPosition p
  | none => throw .positionShape

/-! ## Rotations -/

/-- The rotation of a quaternion, which is normalised first or has to be of length one. -/
def quaternion (normalize : Bool) (t : Tensor Float) : Except (Error Float) (Mat3 Float) :=
  match t.shape, t.data.toList with
  | [4], [w, x, y, z] => Rotation.ofQuaternion normalize ⟨w, x, y, z⟩
  | shape, _ => .error (.quaternionShape shape)

/-- A matrix of three rows of numbers that passes as a rotation. -/
def matrix (v : Value) : Except (Error Float) (Mat3 Float) := do
  if v.shape?.isNone then throw (.fault .value)
  if !v.isNumeric then throw .rotationNotNumeric
  let t ← v.toTensor
  match t.toMat3? with
  | some m => Pose.checkRotation m
  | none => throw .rotationShape

/-- A rotation by a matrix, by yaw, pitch and roll, or by a quaternion of any length. -/
def rotation (v : Value) : Except (Error Float) (Mat3 Float) := do
  let t ← v.toTensor
  match t.shape, t.data.toList with
  | [4], _ => Pose.checkRotation (← quaternion true t)
  | [3], [yaw, pitch, roll] => Pose.checkRotation (Rotation.ofAngles yaw pitch roll)
  | _, _ => matrix (.tensor t)

/-! ## Poses -/

/-- The last column and the upper left block of a homogeneous matrix. -/
def homogeneous? (t : Tensor Float) : Option (Tensor Float × Tensor Float) :=
  if t.shape = [4, 4] then
    some (Tensor.ofFn [3] fun index => t.get (index ++ [3]), Tensor.ofFn [3, 3] t.get)
  else none

/-- A pose. A position that is a homogeneous matrix brings its rotation with it. -/
def pose (position rotation : Value) (name : Option String) : Except (Error Float) (Pose Float) := do
  let (position, rotation) ← match position with
    | .null => pure (Value.null, rotation)
    | v => do
      let t ← v.toTensor
      match homogeneous? t with
      | some (p, r) => pure (Value.tensor p, Value.tensor r)
      | none => pure (v, rotation)
  let r ← match rotation with
    | .null => pure Mat3.identity
    | v => Read.rotation v
  let p ← match position with
    | .null => pure ⟨0, 0, 0⟩
    | v => Read.position v
  return ⟨p, r, name.getD ""⟩

/-- The pose that a value stands for, if it is a homogeneous matrix. -/
def homogeneousPose (v : Value) : Except (Error Float) (Pose Float) := do
  let t ← v.toTensor
  if t.shape = [4, 4] then pose (.tensor t) .null none else throw .notAPose

/-- A value where a pose belongs. -/
def poseSource : Value → PoseSource Float
  | .null => .absent
  | v => .read (homogeneousPose v)

/-- A shift and a rotation in arrays that nothing has checked, where a pose belongs. -/
def arraysSource (shift rotation : Tensor Float) : PoseSource Float :=
  .read (pose (.tensor shift) (.tensor rotation) none)

/-! ## What is read is checked -/

theorem checkPosition_of_position {v : Value} {p : Vec3 Float} (h : position v = .ok p) :
    Pose.checkPosition p = .ok p := by
  unfold position at h
  obtain ⟨-, h⟩ := check_eq_ok.mp h
  obtain ⟨-, h⟩ := check_eq_ok.mp h
  obtain ⟨t, -, h⟩ := bind_eq_ok.mp h
  split at h
  · exact Pose.checkPosition_self h
  · cases h

theorem checkRotation_of_rotation {v : Value} {m : Mat3 Float} (h : rotation v = .ok m) :
    Pose.checkRotation m = .ok m := by
  obtain ⟨t, -, h⟩ := bind_eq_ok.mp h
  split at h
  · obtain ⟨_, -, h⟩ := bind_eq_ok.mp h
    exact Pose.checkRotation_self h
  · exact Pose.checkRotation_self h
  · unfold matrix at h
    obtain ⟨-, h⟩ := check_eq_ok.mp h
    obtain ⟨-, h⟩ := check_eq_ok.mp h
    obtain ⟨t, -, h⟩ := bind_eq_ok.mp h
    split at h
    · exact Pose.checkRotation_self h
    · cases h

/-- A pose can be copied if its position and its rotation were read. -/
theorem copy_of_parts (shift turn : Value) (name : String) {p : Pose Float}
    (h : (do
      let r ← rotation turn
      let q ← position shift
      return (⟨q, r, name⟩ : Pose Float)) = .ok p) : p.copy = .ok p := by
  obtain ⟨r, hr, h⟩ := bind_eq_ok.mp h
  obtain ⟨q, hq, h⟩ := bind_eq_ok.mp h
  cases h
  exact Pose.make_eq_ok.mpr ⟨checkRotation_of_rotation hr, checkPosition_of_position hq, rfl⟩

/-- A pose that is read from an array can be copied, if its rotation is given at all. -/
theorem copy_of_pose {t : Tensor Float} {turn : Value} {name : Option String} {p : Pose Float}
    (hturn : t.shape = [4, 4] ∨ turn ≠ .null) (h : pose (.tensor t) turn name = .ok p) :
    p.copy = .ok p := by
  obtain ⟨_, hread, h⟩ := bind_eq_ok.mp h
  cases hread
  by_cases hshape : t.shape = [4, 4]
  · rw [homogeneous?, if_pos hshape] at h
    exact copy_of_parts _ _ _ h
  · rw [homogeneous?, if_neg hshape] at h
    simp only [pure_bind] at h
    split at h
    · exact absurd rfl (hturn.resolve_left hshape)
    · exact copy_of_parts _ _ _ h

theorem copy_of_homogeneousPose {v : Value} {p : Pose Float} (h : homogeneousPose v = .ok p) :
    p.copy = .ok p := by
  obtain ⟨t, -, h⟩ := bind_eq_ok.mp h
  split at h
  · rename_i hshape
    exact copy_of_pose (.inl hshape) h
  · cases h

/-! ## Motion in place -/

/-- A pose shifted by a vector; the vector is looked at before the frame. -/
def translate (p : Pose Float) (v : Value) (frame : String) : Except (Error Float) (Pose Float) := do
  let v ← position v
  match Frame.named? frame with
  | some f => return p.translate v f
  | none => throw (.frameName frame)

/-- A pose turned about an axis; the axis is looked at before the frame. -/
def rotate (p : Pose Float) (angle : Float) (axisValue : Value) (frame : String) :
    Except (Error Float) (Pose Float) := do
  let a ← axis axisValue
  match Frame.named? frame with
  | some f => return p.rotate angle a f
  | none => throw (.frameName frame)

end Read

end Clearance
