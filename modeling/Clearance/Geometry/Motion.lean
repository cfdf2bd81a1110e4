import Clearance.Geometry.Mat3

/-!
# Motions

A motion turns space by a matrix and then shifts it. Nothing is required of the matrix; it is a
rigid motion if the matrix is a rotation. A single vector is a column that the matrix multiplies
from the left, a list of vectors are rows that its transpose multiplies from the right.

* `Motion.apply`, `Motion.applyRows`, `Motion.rotate`, `Motion.rotateRows`: the action on points and
  on directions.
* `Motion.mul`, `Motion.inverse`: composition, and the inverse of a rigid motion.
-/

namespace Clearance

/-- A shift after a linear map (`Transform`). -/
structure Motion (α : Type) where
  shift : Vec3 α
  rotation : Mat3 α
  deriving Repr, DecidableEq

namespace Motion

variable {α : Type} [Scalar α]

/-- The image of a point (`transform_vector`). -/
@[inline] def apply (m : Motion α) (v : Vec3 α) : Vec3 α := m.rotation.mulVec v + m.shift

/-- The images of points given as rows. -/
@[inline] def applyRow (m : Motion α) (v : Vec3 α) : Vec3 α := Mat3.vecMul v m.rotation.transpose + m.shift

def applyRows (m : Motion α) (vs : List (Vec3 α)) : List (Vec3 α) := vs.map m.applyRow

/-- The image of a direction (`rotate_vector`). -/
@[inline] def rotate (m : Motion α) (v : Vec3 α) : Vec3 α := m.rotation.mulVec v

/-- The images of directions given as rows. -/
@[inline] def rotateRow (m : Motion α) (v : Vec3 α) : Vec3 α := Mat3.vecMul v m.rotation.transpose

def rotateRows (m : Motion α) (vs : List (Vec3 α)) : List (Vec3 α) := vs.map m.rotateRow

/-- The inverse of a rigid motion: the transpose undoes the rotation (`inverse_transformation`). -/
def inverse (m : Motion α) : Motion α :=
  ⟨-(m.rotation.transpose.mulVec m.shift), m.rotation.transpose⟩

/-- The motion that moves by `n` first and by `m` then (`__mul__`). -/
def mul (m n : Motion α) : Motion α :=
  ⟨m.shift + m.rotation.mulVec n.shift, m.rotation.mul n.rotation⟩

@[simp] theorem length_applyRows (m : Motion α) (vs : List (Vec3 α)) : (m.applyRows vs).length = vs.length := by
  simp [applyRows]

@[simp] theorem length_rotateRows (m : Motion α) (vs : List (Vec3 α)) : (m.rotateRows vs).length = vs.length := by
  simp [rotateRows]

end Motion

end Clearance
