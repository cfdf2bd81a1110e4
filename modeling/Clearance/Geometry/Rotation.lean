import Clearance.Error
import Clearance.Geometry.Mat3

/-!
# Rotation matrices

Three ways of describing a rotation, each with the matrix it stands for.

* `Rotation.aboutAxis`: a turn by an angle about an axis, counterclockwise seen from the tip of the
  axis.
* `Rotation.ofUnitQuaternion`, `Rotation.ofQuaternion`: a quaternion with its scalar part first, of
  length one or of any length but zero.
* `Rotation.ofAngles`: a yaw, a pitch and a roll about the fixed axes, the roll taken first.
-/

namespace Clearance

/-- Four scalars, the scalar part first. -/
structure Quaternion (α : Type) where
  w : α
  x : α
  y : α
  z : α
  deriving Repr, DecidableEq

namespace Quaternion

variable {α : Type} [Scalar α]

/-- The length of a quaternion. -/
def norm (q : Quaternion α) : α := Scalar.sqrt (q.w * q.w + q.x * q.x + q.y * q.y + q.z * q.z)

/-- The quaternion with every part divided by a scalar. -/
def divide (q : Quaternion α) (a : α) : Quaternion α := ⟨q.w / a, q.x / a, q.y / a, q.z / a⟩

/-- A quaternion of a smaller length passes for zero. -/
def leastNorm : α := 1e-12

/-- The length of a quaternion may be off one by this much if it is not to be normalised. -/
def unitTolerance : α := 1e-8 + 1e-5

end Quaternion

namespace Rotation

variable {α : Type} [Scalar α]

/-- The unit vector along a coordinate axis, named by its letter and an optional minus sign
    (`convert_to_axis_vector`). -/
def axisNamed? (name : String) : Option (Vec3 α) :=
  match name with
  | "x" => some ⟨1, 0, 0⟩
  | "y" => some ⟨0, 1, 0⟩
  | "z" => some ⟨0, 0, 1⟩
  | "-x" => some ⟨-1, 0, 0⟩
  | "-y" => some ⟨0, -1, 0⟩
  | "-z" => some ⟨0, 0, -1⟩
  | _ => none

/-- The rotation by `angle` about `axis`, whose length does not matter (`rotation_matrix`). About
    the zero vector nothing is turned, and the matrix shrinks space instead. -/
def aboutAxis (angle : α) (axis : Vec3 α) : Mat3 α :=
  let n := axis.normalize
  let a := Scalar.cos (angle / 2)
  let s := Scalar.sin (angle / 2)
  let b := -n.x * s
  let c := -n.y * s
  let d := -n.z * s
  let aa := a * a
  let bb := b * b
  let cc := c * c
  let dd := d * d
  ⟨⟨aa + bb - cc - dd, 2 * (b * c + a * d), 2 * (b * d - a * c)⟩,
   ⟨2 * (b * c - a * d), aa + cc - bb - dd, 2 * (c * d + a * b)⟩,
   ⟨2 * (b * d + a * c), 2 * (c * d - a * b), aa + dd - bb - cc⟩⟩

/-- The rotation of a quaternion of length one. -/
def ofUnitQuaternion (q : Quaternion α) : Mat3 α :=
  ⟨⟨q.w * q.w + q.x * q.x - q.y * q.y - q.z * q.z, 2 * (q.x * q.y - q.w * q.z), 2 * (q.x * q.z + q.w * q.y)⟩,
   ⟨2 * (q.x * q.y + q.w * q.z), q.w * q.w - q.x * q.x + q.y * q.y - q.z * q.z, 2 * (q.y * q.z - q.w * q.x)⟩,
   ⟨2 * (q.x * q.z - q.w * q.y), 2 * (q.y * q.z + q.w * q.x), q.w * q.w - q.x * q.x - q.y * q.y + q.z * q.z⟩⟩

/-- The rotation of a quaternion, which is normalised first or has to be of length one
    (`quaternion2matrix`). -/
def ofQuaternion (normalize : Bool) (q : Quaternion α) : Except (Error α) (Mat3 α) :=
  let n := q.norm
  if Scalar.lt n Quaternion.leastNorm then .error .quaternionZero
  else if normalize then .ok (ofUnitQuaternion (q.divide n))
  else if Scalar.le (Scalar.abs (n - 1)) Quaternion.unitTolerance then .ok (ofUnitQuaternion q)
  else .error .quaternionNotUnit

/-- The rotation by `roll` about x, then `pitch` about y, then `yaw` about z, all axes fixed
    (`rpy_matrix`). -/
def ofAngles (yaw pitch roll : α) : Mat3 α :=
  ((aboutAxis yaw ⟨0, 0, 1⟩).mul (aboutAxis pitch ⟨0, 1, 0⟩)).mul (aboutAxis roll ⟨1, 0, 0⟩)

end Rotation

end Clearance
