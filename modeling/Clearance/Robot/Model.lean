import Clearance.Collision.PairKey
import Clearance.Robot.Joint
import Clearance.Shape.Placed
import Clearance.Table

/-!
# Robot models

A robot is a tree of links. Links are added after their parents, and each link but the root hangs on
its parent by one joint. Groups give names to lists of links.

* `RobotModel.addLink`: one more link. A refused addition leaves the model as it is, though the
  joint that was handed in may have been given a name by then.
* `RobotModel.ancestors`, `RobotModel.distance`: the way to the root, and the number of joints
  between links.
* `RobotModel.adjacentPairs`: the pairs of links less than so many joints apart.
-/

namespace Clearance

/-- A rigid part of a robot, with the shapes by which it collides (`Link`). -/
structure Link (α : Type) where
  name : String
  shapes : List (PlacedShape α)
  parent : Option String
  children : List String
  /-- The name of the joint on which the link hangs. -/
  joint : Option String

/-- The description of a link. -/
def Link.written {α : Type} (l : Link α) : String := "#<Link " ++ l.name ++ ">"

/-- A link with one more child, unless it is a child already (`add_child_link`). -/
def Link.addChild {α : Type} (l : Link α) (child : String) : Link α :=
  if l.children.contains child then l else { l with children := l.children ++ [child] }

/-- The kinds of models that are told apart in descriptions. -/
inductive ModelKind where
  | plain
  | dualArm
  deriving Repr, DecidableEq

/-- Links, joints and groups by their names, in the order in which they were added
    (`RobotModel`). -/
structure RobotModel (α : Type) where
  kind : ModelKind
  name : Option String
  links : Table String (Link α)
  joints : Table String (Joint α)
  groups : Table String (List String)

/-- What a link is to be made of. -/
structure LinkSource (α : Type) where
  name : String
  parent : Option String
  joint : Option (Joint α)
  /-- The pose of the link seen from its parent, in place of the joint's origin. -/
  origin : Option (PoseSource α)
  shapes : List (ShapeSource α)
  poses : Option (List (PoseSource α))

/-- What became of an attempt to add a link: the model, the joint that was handed in, and the link
    or an error. -/
structure LinkAddition (α : Type) where
  model : RobotModel α
  joint : Option (Joint α)
  outcome : Except (Error α) (Link α)

namespace RobotModel

variable {α : Type}

/-- A model without links. -/
def empty (kind : ModelKind) (name : Option String) : RobotModel α :=
  ⟨kind, name, Table.empty, Table.empty, Table.empty⟩

/-- The description of a model. -/
def written (m : RobotModel α) : String :=
  let kind := match m.kind with
    | .plain => "RobotModel"
    | .dualArm => "DualArmRobot"
  "#<" ++ kind ++ " " ++ Text.optional m.name ++ " links=" ++ toString m.links.size ++ ">"

/-! ## Looking up -/

/-- The names of all links (`link_names`). -/
def linkNames (m : RobotModel α) : List String := m.links.keys

/-- The first link that hangs on no other (`root_link`). -/
def root? (m : RobotModel α) : Option (Link α) := m.links.values.find? fun l => l.parent.isNone

/-- The link of a name. -/
def link (m : RobotModel α) (name : String) : Except (Error α) (Link α) :=
  match m.links.find? name with
  | some l => .ok l
  | none => .error (.unknownLink m.name name)

/-- The joint of a name. -/
def joint (m : RobotModel α) (name : String) : Except (Error α) (Joint α) :=
  match m.joints.find? name with
  | some j => .ok j
  | none => .error (.unknownJoint m.name name)

/-- The links of a group (`group_link_names`). -/
def group (m : RobotModel α) (name : String) : Except (Error α) (List String) :=
  match m.groups.find? name with
  | some links => .ok links
  | none => .error (.unknownGroup m.name name)

/-- The model with a named group of links, all of which have to be there (`add_group`). -/
def addGroup (m : RobotModel α) (name : String) (links : List String) : Except (Error α) (RobotModel α) := do
  links.forM fun l => discard (m.link l)
  return { m with groups := m.groups.set name links }

/-! ## Changing the tree -/

/-- The model in which a link hangs on another, or on none; nothing else changes
    (`add_parent_link`). -/
def setParent (m : RobotModel α) (name : String) (parent : Option String) : Except (Error α) (RobotModel α) := do
  let l ← m.link name
  if let some p := parent then discard (m.link p)
  return { m with links := m.links.set name { l with parent := parent } }

/-- The model in which a link has one more child, if any; nothing else changes. -/
def addChild (m : RobotModel α) (name : String) (child : Option String) :
    Except (Error α) (RobotModel α × List String) := do
  let l ← m.link name
  let l' ← match child with
    | some c => (m.link c).map fun _ => l.addChild c
    | none => pure l
  return ({ m with links := m.links.set name l' }, l'.children)

variable [Scalar α]

/-- The link of given parts, on its own. -/
def makeLink (source : LinkSource α) : Except (Error α) (Link α) := do
  let shapes ← source.shapes.mapM ShapeSource.validate
  let poses := source.poses.getD (List.replicate shapes.length .absent)
  if poses.length ≠ shapes.length then throw (.linkShapesLength shapes.length poses.length)
  let poses ← poses.mapM PoseSource.toPose
  return ⟨source.name, List.zipWith PlacedShape.mk shapes poses, none, [], none⟩

/-- The name of a joint that was given none. -/
def jointName (link : String) : String := link ++ "_joint"

/-- The model with a link that hangs on its parent by a joint. -/
def hang (m : RobotModel α) (l parent : Link α) (name : String) (j : Joint α) : RobotModel α :=
  { m with
    links := (m.links.set parent.name (parent.addChild l.name)).set l.name
      { l with parent := some parent.name, joint := some name }
    joints := m.joints.set name j }

/-- Adds a link under a parent, by a joint: the given one, or one that does not move. -/
def addUnder (m : RobotModel α) (source : LinkSource α) (l : Link α) (parent : String) : LinkAddition α :=
  match m.link parent with
  | .error e => ⟨m, source.joint, .error e⟩
  | .ok parent =>
    let j := source.joint.getD (Joint.fixed none Pose.origin)
    let name := j.name.getD (jointName l.name)
    let named := { j with name := some name }
    let handedIn (j : Joint α) : Option (Joint α) := source.joint.map fun _ => j
    if m.joints.contains name then ⟨m, handedIn named, .error (.jointExists name)⟩
    else
      match (source.origin.map PoseSource.toPose).getD (.ok named.origin) with
      | .error e => ⟨m, handedIn named, .error e⟩
      | .ok origin =>
        let placed := { named with origin := origin, parent := some parent.name, child := some l.name }
        ⟨m.hang l parent name placed, handedIn placed,
          .ok { l with parent := some parent.name, joint := some name }⟩

/-- Adds a link (`add_link`). The link itself is made first; then the root is refused if there is
    one, or the parent and the joint are looked at. -/
def addLink (m : RobotModel α) (source : LinkSource α) : LinkAddition α :=
  if m.links.contains source.name then ⟨m, source.joint, .error (.linkExists source.name)⟩
  else
    match makeLink source with
    | .error e => ⟨m, source.joint, .error e⟩
    | .ok l =>
      match source.parent with
      | some parent => m.addUnder source l parent
      | none =>
        match m.root? with
        | some root => ⟨m, source.joint, .error (.rootExists m.name root.name)⟩
        | none => ⟨{ m with links := m.links.set l.name l }, source.joint, .ok l⟩

/-! ## Distances in the tree -/

/-- The names met on the way up from a link, for at most so many links. -/
def climb (m : RobotModel α) : Nat → String → List String
  | 0, _ => []
  | steps + 1, name =>
    name :: (match (m.links.find? name).bind Link.parent with
      | some parent => m.climb steps parent
      | none => [])

/-- A link and all links above it, up to the root (`get_ancestors`). The way up meets no link
    twice. -/
def ancestors (m : RobotModel α) (name : String) : List String := m.climb m.links.size name

/-- The number of links on two ways up before they meet. -/
def meeting (first second : List String) : Option Nat :=
  second.findSome? fun name =>
    if first.contains name then some (first.idxOf name + second.idxOf name) else none

/-- The number of joints between two links, absent if they are not connected
    (`kinematic_distance`). -/
def distance (m : RobotModel α) (a b : String) : Except (Error α) (Option Nat) := do
  discard (m.link a)
  discard (m.link b)
  return meeting (m.ancestors a) (m.ancestors b)

/-- The pairs of a list, the earlier member first. -/
def pairs {β : Type} : List β → List (β × β)
  | [] => []
  | a :: rest => rest.map (fun b => (a, b)) ++ pairs rest

/-- Whether a number of joints is below a bound. An integer is compared as it is, however long. -/
def isBelow (bound : Given α) (n : Nat) : Except Fault Bool :=
  match bound.int? with
  | some b => .ok ((n : Int) < b)
  | none => bound.compare?.map fun b => Scalar.lt (Scalar.ofInt (n : Int)) b

/-- Whether a number of joints is positive and below a bound. -/
def isNear (bound : Given α) : Option Nat → Except Fault Bool
  | some 0 => .ok false
  | some n => isBelow bound n
  | none => (isBelow bound 0).map fun _ => false

/-- The pairs of links less than so many joints apart, by the order of the links, each pair with its
    names in order (`adjacent_link_pairs`). -/
def adjacentPairs (m : RobotModel α) (bound : Given α) : Except (Error α) (List (String × String)) := do
  let near ← (pairs m.linkNames).filterM fun (a, b) => do
    let d ← m.distance a b
    Fault.lift (isNear bound d)
  return near.map fun (a, b) => pairKey a b

/-! ## Joint values -/

/-- The names of the joints that take a value (`joint_names`). -/
def jointNames (m : RobotModel α) : Except (Error α) (List String) := do
  let degrees ← m.joints.entries.mapM fun (name, j) => (j.degrees).map fun n => (name, n)
  return degrees.filterMap fun (name, n) => if 0 < n then some name else none

/-- The values of the joints closest to zero (`default_joint_values`). -/
def defaultValues (m : RobotModel α) : Except (Error α) (Table String α) := do
  let names ← m.jointNames
  let values ← names.mapM fun name => do
    let j ← m.joint name
    let v ← Fault.lift j.defaultValue
    return (name, v)
  return Table.ofList values

end RobotModel

end Clearance
