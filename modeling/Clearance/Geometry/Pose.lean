import Clearance.Error
import Clearance.Geometry.Motion
import Clearance.Geometry.Rotation

/-!
# Poses

The position and the rotation of a body, with a name. A pose that is built, copied, composed or
inverted is checked: the determinant of the rotation is one up to a tolerance, and the position is
finite. Moving a pose in place is not checked.

* `Pose.make`: the checked pose.
* `Pose.translate`, `Pose.rotate`: motions in place, along the pose's own axes or the world's.
* `Pose.transform`, `Pose.inverse`: composition and inverse.
* `Pose.toLocal`: a point of the world seen from the pose.
* `Pose.homogeneous`: the four by four matrix that acts as the pose does.
-/

namespace Clearance

/-- A position, a rotation and a name (`Coordinates`). -/
structure Pose (α : Type) where
  position : Vec3 α
  rotation : Mat3 α
  name : String
  deriving Repr, DecidableEq

/-- The axes along which a pose is moved in place. -/
inductive Frame where
  | own
  | world
  deriving Repr, DecidableEq

/-- The frame of a given name. -/
def Frame.named? : String → Option Frame
  | "local" => some .own
  | "world" => some .world
  | _ => none

namespace Pose

variable {α : Type} [Scalar α]

/-! ## Checks -/

/-- How far the determinant of an accepted rotation may be from one. -/
def determinantTolerance : α := 1e-3

/-- A matrix passes as a rotation unless its determinant is seen to be off
    (`_check_valid_rotation`). -/
def checkRotation (m : Mat3 α) : Except (Error α) (Mat3 α) :=
  if Scalar.lt determinantTolerance (Scalar.abs (m.det - 1)) then .error .rotationDeterminant else .ok m

/-- A position has finite coordinates (`_check_valid_translation`). -/
def checkPosition (v : Vec3 α) : Except (Error α) (Vec3 α) :=
  if v.isFinite then .ok v else .error .positionNotFinite

/-- A matrix that passed the check passes it again. -/
theorem checkRotation_self {m r : Mat3 α} (h : checkRotation m = .ok r) : checkRotation r = .ok r := by
  unfold checkRotation at h
  split at h
  · cases h
  · rename_i hdet
    cases h
    exact if_neg hdet

/-- A position that passed the check passes it again. -/
theorem checkPosition_self {v p : Vec3 α} (h : checkPosition v = .ok p) : checkPosition p = .ok p := by
  unfold checkPosition at h
  split at h
  · rename_i hfinite
    cases h
    exact if_pos hfinite
  · cases h

/-- The pose with the given parts, if they pass the checks. The rotation is looked at first. -/
def make (position : Vec3 α) (rotation : Mat3 α) (name : String) : Except (Error α) (Pose α) := do
  let r ← checkRotation rotation
  let p ← checkPosition position
  return ⟨p, r, name⟩

/-- A pose is made of the parts that pass the checks. -/
theorem make_eq_ok {v : Vec3 α} {m : Mat3 α} {name : String} {p : Pose α} :
    make v m name = .ok p ↔ checkRotation m = .ok m ∧ checkPosition v = .ok v ∧ p = ⟨v, m, name⟩ := by
  unfold make checkRotation checkPosition
  split
  · exact ⟨nofun, nofun⟩
  · split
    · exact ⟨fun h => ⟨rfl, rfl, (Except.ok.inj h).symm⟩, fun h => congrArg Except.ok h.2.2.symm⟩
    · exact ⟨nofun, nofun⟩

/-- The pose of the world itself. -/
def origin : Pose α := ⟨⟨0, 0, 0⟩, Mat3.identity, ""⟩

instance : Inhabited (Pose α) := ⟨origin⟩

/-- The motion that takes a point seen from the pose to the world (`get_transform`). -/
def toMotion (p : Pose α) : Motion α := ⟨p.position, p.rotation⟩

/-- The four rows of the homogeneous matrix of a pose (`T`). -/
def homogeneous (p : Pose α) : List (List α) :=
  List.zipWith (fun row x => row.toList ++ [x]) p.rotation.toList p.position.toList ++ [[0, 0, 0, 1]]

/-- A pose of its own with the same parts (`copy_worldcoords`). -/
def copy (p : Pose α) : Except (Error α) (Pose α) := make p.position p.rotation p.name

theorem eq_of_copy {p q : Pose α} (h : p.copy = .ok q) : q = p := (make_eq_ok.mp h).2.2

/-- A pose that was made can be copied. -/
theorem copy_of_make {v : Vec3 α} {m : Mat3 α} {name : String} {p : Pose α} (h : make v m name = .ok p) :
    p.copy = .ok p := by
  obtain ⟨hm, hv, rfl⟩ := make_eq_ok.mp h
  exact make_eq_ok.mpr ⟨hm, hv, rfl⟩

/-- The nameless pose of a motion. -/
def ofMotion (m : Motion α) : Except (Error α) (Pose α) := make m.shift m.rotation ""

/-! ## Composition -/

/-- The pose that has pose `q` seen from `p` (`transform`). -/
def transform (p q : Pose α) : Except (Error α) (Pose α) :=
  make (p.position + p.rotation.mulVec q.position) (p.rotation.mul q.rotation) ""

/-- The pose of the world seen from `p` (`inverse_transformation`). -/
def inverse (p : Pose α) : Except (Error α) (Pose α) :=
  make (-(p.rotation.transpose.mulVec p.position)) p.rotation.transpose ""

/-- A point seen from the pose, in the world (`transform_vector`). -/
@[inline] def toWorld (p : Pose α) (v : Vec3 α) : Vec3 α := p.toMotion.apply v

/-- A point of the world, seen from the pose (`inverse_transform_vector`). -/
@[inline] def toLocal (p : Pose α) (v : Vec3 α) : Vec3 α := p.rotation.transpose.mulVec (v - p.position)

/-- A row of world coordinates, seen from the pose. -/
@[inline] def rowToLocal (p : Pose α) (v : Vec3 α) : Vec3 α := Mat3.vecMul (v - p.position) p.rotation

/-- Rows of world coordinates, seen from the pose. -/
def rowsToLocal (p : Pose α) (vs : List (Vec3 α)) : List (Vec3 α) := vs.map p.rowToLocal

/-! ## Motion in place -/

/-- The pose shifted by a vector (`translate`). -/
def translate (p : Pose α) (v : Vec3 α) : Frame → Pose α
  | .own => { p with position := p.position + p.rotation.mulVec v }
  | .world => { p with position := p.position + v }

/-- The pose turned about an axis (`rotate`). -/
def rotate (p : Pose α) (angle : α) (axis : Vec3 α) : Frame → Pose α
  | .own => { p with rotation := p.rotation.mul (Rotation.aboutAxis angle axis) }
  | .world => { p with rotation := (Rotation.aboutAxis angle axis).mul p.rotation }

end Pose

/-! ## Whatever may stand where a pose belongs -/

/-- Nothing, a pose, or a value that was read as a pose, which can have failed. -/
inductive PoseSource (α : Type) where
  | absent
  | pose (p : Pose α)
  | read (result : Except (Error α) (Pose α))

/-- The pose that a source stands for: the origin for nothing, a copy of a pose, and the outcome of
    a reading (`as_coords`). -/
def PoseSource.toPose {α : Type} [Scalar α] : PoseSource α → Except (Error α) (Pose α)
  | .absent => .ok Pose.origin
  | .pose p => p.copy
  | .read result => result

end Clearance
