import Clearance.Error
import Clearance.Input.Tensor
import Clearance.Input.Value
import Clearance.Geometry.Motion

/-!
# Motions in arrays of any shape

A shift and a rotation that nothing has checked, combined by the rules of arrays: lengths that do
not fit make an operation fail where it meets them. `LooseMotion.ofMotion` is the case of three
numbers and a three by three matrix.

* `LooseMotion.apply`, `LooseMotion.rotate`: the action on one vector or on rows of them.
* `LooseMotion.toLocal`: the action of the inverse of a rigid motion.
-/

namespace Clearance

/-- A shift and a rotation in arrays of any shape. -/
structure LooseMotion (α : Type) where
  shift : Tensor α
  rotation : Tensor α
  deriving Repr, DecidableEq

namespace LooseMotion

variable {α : Type} [Scalar α]

/-- The arrays of a motion. -/
def ofMotion (m : Motion α) : LooseMotion α := ⟨Tensor.ofVec3 m.shift, Tensor.ofMat3 m.rotation⟩

/-- The image of directions: a single one is a column, several are rows. -/
def rotate (m : LooseMotion α) (v : Tensor α) : Except (Error α) (Tensor α) :=
  if 3 ≤ v.rank then .error .vectorRank
  else if v.rank = 1 then m.rotation.dot v
  else v.dot m.rotation.transpose

/-- The image of points: a single one is a column, several are rows. -/
def apply (m : LooseMotion α) (v : Tensor α) : Except (Error α) (Tensor α) := do
  let turned ← m.rotate v
  if v.rank = 1 then turned.add m.shift else turned.add (← m.shift.addAxis)

/-- Points of the world seen from the frame of a rigid motion. -/
def toLocal (m : LooseMotion α) (v : Tensor α) : Except (Error α) (Tensor α) := do
  if v.rank = 1 then m.rotation.transpose.dot (← v.sub m.shift)
  else (← v.sub (← m.shift.addAxis)).dot m.rotation

/-- The inverse of a rigid motion. -/
def inverse (m : LooseMotion α) : Except (Error α) (LooseMotion α) := do
  let back := m.rotation.transpose
  let moved ← back.dot m.shift
  return ⟨moved.map (-·), back⟩

/-- The motion that moves by `n` first and by `m` then. -/
def mul (m n : LooseMotion α) : Except (Error α) (LooseMotion α) := do
  let rotation ← m.rotation.dot n.rotation
  let moved ← m.rotation.dot n.shift
  return ⟨← m.shift.add moved, rotation⟩

end LooseMotion

end Clearance
