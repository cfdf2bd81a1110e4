import Clearance.Event
import Clearance.Geometry.Pose
import Clearance.Text.Quoted

/-!
# Joints

A joint connects a parent link and a child link. Its origin is the pose of the child seen from the
parent when its value is zero; the value turns the child about an axis or shifts it along one. A
value beyond a limit is replaced by the limit, and the event is reported.

* `Joint.clamp`: a value within the limits.
* `Joint.defaultValue`: the value within the limits that is closest to zero.
* `Joint.childPose`: the pose of the child seen from the parent.
-/

namespace Clearance

/-- How a joint moves its child. -/
inductive JointKind (α : Type) where
  | fixed
  | rotational (axis : Vec3 α)
  | linear (axis : Vec3 α)
  /-- A joint of no particular kind, which moves nothing. -/
  | unspecified
  deriving Repr, DecidableEq

/-- A joint, with the names of the links that it connects once it does (`Joint`). -/
structure Joint (α : Type) where
  name : Option String
  kind : JointKind α
  origin : Pose α
  least : Given α
  greatest : Given α
  parent : Option String
  child : Option String
  deriving Repr, DecidableEq

/-- The word for a kind of joint. -/
def JointKind.word {α : Type} : JointKind α → String
  | .fixed => "FixedJoint"
  | .rotational _ => "RotationalJoint"
  | .linear _ => "LinearJoint"
  | .unspecified => "Joint"

namespace Joint

variable {α : Type} [Scalar α]

/-! ## Making joints -/

/-- A joint that does not move, at an origin (`FixedJoint`). -/
def fixed (name : Option String) (origin : Pose α) : Joint α :=
  ⟨name, .fixed, origin, .real 0, .real 0, none, none⟩

/-- A joint that turns about an axis (`RotationalJoint`). Without limits it turns half a turn to
    each side. -/
def rotational (name : Option String) (axis : Vec3 α) (origin : Pose α) (least greatest : Option (Given α)) :
    Joint α :=
  ⟨name, .rotational axis.normalize, origin, least.getD (.real (-Scalar.pi)), greatest.getD (.real Scalar.pi),
    none, none⟩

/-- A joint that shifts along an axis (`LinearJoint`). Without limits it shifts half a unit to each
    side. -/
def linear (name : Option String) (axis : Vec3 α) (origin : Pose α) (least greatest : Option (Given α)) :
    Joint α :=
  ⟨name, .linear axis.normalize, origin, least.getD (.real (-0.5)), greatest.getD (.real 0.5), none, none⟩

/-- A joint of no particular kind. Without limits it has a quarter turn to each side. -/
def unspecified (name : Option String) (origin : Pose α) (least greatest : Option (Given α)) : Joint α :=
  ⟨name, .unspecified, origin, least.getD (.real (-Scalar.pi / 2)), greatest.getD (.real (Scalar.pi / 2)), none,
    none⟩

/-! ## Values -/

/-- The description of a joint. -/
def written (j : Joint α) : String := "#<" ++ j.kind.word ++ " " ++ Text.optional j.name ++ ">"

/-- The number of values that a joint takes (`joint_dof`). -/
def degrees (j : Joint α) : Except (Error α) Nat :=
  match j.kind with
  | .fixed => .ok 0
  | .rotational _ | .linear _ => .ok 1
  | .unspecified => .error .notImplemented

/-- Whether one parameter exceeds another. -/
def exceeds (a b : Given α) : Except Fault Bool := do
  let x ← a.compare?
  let y ← b.compare?
  return Scalar.lt y x

/-- A value within the limits, and the event of its having been beyond them (`clamp`). The greatest
    value is looked at first. A joint that does not move has the value zero. -/
def clamp (j : Joint α) (v : Given α) : Except Fault (Given α × Option (Event α)) :=
  match j.kind with
  | .fixed => .ok (.real 0, none)
  | _ => do
    if ← exceeds v j.greatest then
      return (j.greatest, some (.jointLimit j.written v .greatest j.greatest))
    if ← exceeds j.least v then
      return (j.least, some (.jointLimit j.written v .least j.least))
    return (v, none)

/-- The value within the limits that is closest to zero (`default_value`). -/
def defaultValue (j : Joint α) : Except Fault α := do
  let lo ← j.least.compare?
  let hi ← j.greatest.compare?
  return Scalar.clip 0 lo hi

/-- The pose of the child seen from the parent at a value (`child_transform`). -/
def childPose (j : Joint α) (v : Given α) : Except (Error α) (Pose α) :=
  match j.kind with
  | .fixed => j.origin.copy
  | .rotational axis => do
    let angle ← Fault.lift v.compare?
    Pose.make j.origin.position (j.origin.rotation.mul (Rotation.aboutAxis angle axis)) ""
  | .linear axis => do
    let shift ← Fault.lift v.compare?
    Pose.make (j.origin.position + j.origin.rotation.mulVec (axis.scale shift)) j.origin.rotation ""
  | .unspecified => .error .notImplemented

end Joint

end Clearance
