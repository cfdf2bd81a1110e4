import Clearance.Robot.Model

/-!
# Robot states

A state of a robot: a value for every joint that takes one, and the pose in the world of every link.
The poses follow from the values, link by link from the root down; the pose of a single link can be
overridden, which moves no other link and lasts until the values change.

* `RobotState.forward`: the poses that follow from joint values.
* `RobotState.setValues`: new joint values, each within its limits.
* `RobotState.override`, `RobotState.linkPose`: writing and reading the pose of a link.
-/

namespace Clearance

/-- Joint values and link poses; the root link stands at a given pose (`RobotState`). -/
structure RobotState (α : Type) where
  root : Pose α
  values : Table String α
  poses : Table String (Pose α)

/-- The poses of links in the world, as far as they are known. -/
abbrev LinkPoses (α : Type) := String → Except (Error α) (Pose α)

namespace RobotState

variable {α : Type} [Scalar α]

/-! ## Poses from values -/

/-- The pose of a link in the world, from the poses of the links before it. -/
def placeLink (m : RobotModel α) (root : Pose α) (values : Table String α) (poses : Table String (Pose α))
    (l : Link α) : Except (Error α) (Pose α) :=
  match l.parent with
  | none => root.copy
  | some parent =>
    match l.joint with
    | none => .error (.fault .attribute)
    | some name => do
      let j ← m.joint name
      match poses.find? parent with
      | none => throw (.fault .key)
      | some above =>
        let child ← j.childPose (.real ((values.find? name).getD 0))
        above.transform child

/-- The poses of all links, in the order in which the links were added (`update_transforms`). A
    joint without a value counts as zero. -/
def forward (m : RobotModel α) (root : Pose α) (values : Table String α) :
    Except (Error α) (Table String (Pose α)) :=
  m.links.values.foldlM (fun poses l => do return poses.set l.name (← placeLink m root values poses l))
    Table.empty

/-- The state in which every joint has its default value. -/
def atDefaults (m : RobotModel α) (root : PoseSource α) : Except (Error α) (RobotState α) := do
  let root ← root.toPose
  let values ← m.defaultValues
  let poses ← forward m root values
  return ⟨root, values, poses⟩

/-! ## Changing values -/

/-- What became of a change of joint values: the state, the events, and the error that stopped it,
    if any. The values written before an error stay. -/
structure Change (α : Type) where
  state : RobotState α
  events : List (Event α)
  failure : Option (Error α)

/-- Poses that follow from the values as they are, after the given events. -/
def refresh (m : RobotModel α) (s : RobotState α) (events : List (Event α)) : Change α :=
  match forward m s.root s.values with
  | .ok poses => ⟨{ s with poses := poses }, events, none⟩
  | .error e => ⟨s, events, some e⟩

/-- A joint's value, moved within the limits, and the event of that. -/
def clampedValue (m : RobotModel α) (name : String) (v : Given α) :
    Except (Error α) (α × List (Event α)) := do
  let j ← m.joint name
  let asked ← Fault.lift v.toScalar
  let (kept, event) ← Fault.lift (j.clamp (.real asked))
  return (← Fault.lift kept.toScalar, event.toList)

/-- Writes values one after the other, up to the first that is refused. -/
def writeValues (m : RobotModel α) (s : RobotState α) : List (String × Given α) → List (Event α) → Change α
  | [], events => ⟨s, events, none⟩
  | (name, v) :: rest, events =>
    match clampedValue m name v with
    | .error e => ⟨s, events, some e⟩
    | .ok (x, more) => writeValues m { s with values := s.values.set name x } rest (events ++ more)

/-- Sets joint values, then all poses (`set_joint_values`). Of several values under one name the
    last one counts. -/
def setValues (m : RobotModel α) (s : RobotState α) (values : List (String × Given α)) : Change α :=
  let written := writeValues m s (Table.ofList values).entries []
  match written.failure with
  | some _ => written
  | none => refresh m written.state written.events

/-- Sets all joints to their default values, then all poses (`set_to_default_values`). -/
def setDefaults (m : RobotModel α) (s : RobotState α) : Change α :=
  match m.defaultValues with
  | .error e => ⟨s, [], some e⟩
  | .ok values => refresh m { s with values := values } []

/-! ## Reading and overriding -/

/-- The value of a joint (`joint_value`). -/
def value (s : RobotState α) (name : String) : Except (Error α) α :=
  match s.values.find? name with
  | some x => .ok x
  | none => .error (.noJointValue name)

/-- The state in which one link stands elsewhere (`update_link_transform`). -/
def override (m : RobotModel α) (s : RobotState α) (name : String) (pose : PoseSource α) :
    Except (Error α) (RobotState α) := do
  discard (m.link name)
  return { s with poses := s.poses.set name (← pose.toPose) }

/-- The pose of a link in the world (`link_transform`). A link that was added after the poses were
    last computed has none. -/
def linkPose (m : RobotModel α) (s : RobotState α) : LinkPoses α := fun name =>
  match s.poses.find? name with
  | some p => p.copy
  | none =>
    match m.link name with
    | .ok _ => .error (.fault .key)
    | .error e => .error e

/-- A state of its own with the same values and poses (`copy`). It is set up at the default values
    first, which can fail if the model has changed. -/
def copy (m : RobotModel α) (s : RobotState α) : Except (Error α) (RobotState α) := do
  let fresh ← atDefaults m (.pose s.root)
  let poses ← s.poses.entries.mapM fun (name, p) => (p.copy).map fun q => (name, q)
  return { fresh with values := s.values, poses := Table.ofList poses }

end RobotState

end Clearance
