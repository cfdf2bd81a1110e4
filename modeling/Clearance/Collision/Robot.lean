import Clearance.Collision.Allowed
import Clearance.Collision.Check
import Clearance.Collision.LinkGeometry
import Clearance.Robot.State

/-!
# Checking a robot against itself

A robot checker holds the bodies of every link that a model had when the checker was made. A query
places the bodies of a group of links at the poses of the links and looks at all pairs of them.
Passed over are bodies that are attached to one link, neighbouring links unless their pair is
forbidden explicitly, pairs that may collide, and bodies that may touch each other.

* `RobotChecker.make`: the checker of a model.
* `RobotChecker.attach`, `RobotChecker.detach`, `RobotChecker.detachAll`: bodies that move with a
  link.
* `RobotChecker.candidates`: the pairs in the order in which they are looked at.
* `RobotChecker.check`, `RobotChecker.distance`: the queries.
-/

namespace Clearance

/-- The bodies of a robot's links, and the pairs of neighbours (`CollisionRobotDistanceField`). -/
structure RobotChecker (α : Type) where
  robot : Option String
  neighbours : List (String × String)
  geometries : Table String (LinkGeometry α)

namespace RobotChecker

variable {α : Type}

/-- The description of a checker. -/
def written (c : RobotChecker α) : String :=
  "<CollisionRobotDistanceField robot=" ++ Text.optional c.robot ++ " links=" ++ toString c.geometries.size ++ ">"

/-- Whether two links are neighbours (`is_adjacent`). -/
def isNeighbour (c : RobotChecker α) (a b : String) : Bool := c.neighbours.contains (pairKey a b)

/-- The bodies of a link (`link_geometry`). -/
def geometry (c : RobotChecker α) (link : String) : Except (Error α) (LinkGeometry α) :=
  match c.geometries.find? link with
  | some g => .ok g
  | none => .error (.unknownLink c.robot link)

/-- The checker with other bodies of a link. -/
def setGeometry (c : RobotChecker α) (g : LinkGeometry α) : RobotChecker α :=
  { c with geometries := c.geometries.set g.link g }

/-- The places of the bodies attached to a link, or to all links of a model (`attached_bodies`). -/
def attachedBodies (c : RobotChecker α) (m : RobotModel α) : Option String → Except (Error α) (List Nat)
  | some link => (c.geometry link).map fun g => g.attached.values
  | none => do
    let all ← m.linkNames.mapM fun link =>
      match c.geometries.find? link with
      | some g => Except.ok g.attached.values
      | none => .error (.fault .key)
    return all.flatten

variable [Scalar α]

/-! ## Making a checker -/

/-- The neighbours of a checker: the given pairs, or the links next to each other in the model
    (`adjacency`). -/
def neighbourPairs (m : RobotModel α) (given : Option (List (String × String))) :
    Except (Error α) (List (String × String)) :=
  match given with
  | some pairs => .ok (pairs.map fun (a, b) => pairKey a b).eraseDups
  | none => (m.adjacentPairs (.int 2)).map fun pairs => (pairs.map fun (a, b) => pairKey a b).eraseDups

/-- The checker of a model. The bodies are built link by link; those built before a failure stay in
    the inventory. -/
def make (m : RobotModel α) (neighbours : Option (List (String × String))) (params : BodyParams α) :
    InventoryM α (RobotChecker α) := do
  let neighbours ← neighbourPairs m neighbours
  let geometries ← m.links.values.mapM fun l =>
    LinkGeometry.make l.name (Inventory.sources l.shapes) (Inventory.poseSources l.shapes) params
  Inventory.report (.robotCreated geometries.length m.name)
  return ⟨m.name, neighbours, Table.ofList (geometries.map fun g => (g.link, g))⟩

/-! ## Attached bodies -/

/-- Attaches a body to a link, and gives its place (`attach_body`). -/
def attach (c : RobotChecker α) (link : String) (a : Attachment α) : InventoryM α (RobotChecker α × Nat) := do
  let g ← c.geometry link
  let (g, id) ← g.attach a
  return (c.setGeometry g, id)

/-- Detaches a body from a link (`clear_attached_body`). -/
def detach (c : RobotChecker α) (link name : String) : InventoryM α (RobotChecker α) := do
  let g ← c.geometry link
  return c.setGeometry (← g.detach name)

/-- Detaches all bodies from a link, or from all links (`clear_attached_bodies`). -/
def detachAll (c : RobotChecker α) : Option String → InventoryM α (RobotChecker α)
  | some link => do
    let g ← c.geometry link
    return c.setGeometry (← g.detachAll)
  | none => c.geometries.values.foldlM (fun c g => do return c.setGeometry (← g.detachAll)) c

/-! ## Pairs -/

/-- The links of a group (`resolve_group`). The name of all links can be the name of a group of its
    own. -/
def group (m : RobotModel α) (name : Option String) : Except (Error α) (List String) :=
  match name.bind m.groups.find? with
  | some links => .ok links
  | none =>
    if name = none || name = some wholeBody then .ok m.linkNames else .error (.requestGroup m.name name)

/-- A body of a link at the pose of the link. -/
def placeBody (inv : Inventory α) (link : String) (pose : Pose α) (id : Nat) : Option (PlacedBody α) :=
  (inv.body? id).map fun b =>
    let touch := match b.role with
      | .attached _ touch => touch
      | _ => []
    ⟨b.name, some link, b.role.type, b, pose, touch⟩

/-- The bodies of links at the poses of the links: for each link its own body and then the attached
    ones (`body_refs`). -/
def placed (c : RobotChecker α) (inv : Inventory α) (poses : LinkPoses α) (links : List String) :
    Except (Error α) (List (PlacedBody α)) := do
  let all ← links.mapM fun link => do
    match c.geometries.find? link with
    | none => throw (.fault .key)
    | some g =>
      let pose ← poses link
      return g.bodies.filterMap (placeBody inv link pose)
  return all.flatten

/-- Whether a body is attached to a link. -/
def isAttached (b : PlacedBody α) : Bool := b.type == "robot_attached"

/-- Whether a body is a link's own. -/
def isOwn (b : PlacedBody α) : Bool := b.type == "robot_link"

/-- Whether a pair is forbidden explicitly. -/
def isForbidden (allowed : Option AllowedCollisions) (a b : String) : Bool :=
  match allowed with
  | some t => t.has a b && !t.get a b
  | none => false

/-- Whether a pair may collide. -/
def isAllowed (allowed : Option AllowedCollisions) (a b : String) : Bool :=
  match allowed with
  | some t => t.get a b
  | none => false

/-- Why a pair of a robot's bodies is passed over, if it is. -/
def skip? (c : RobotChecker α) (allowed : Option AllowedCollisions) (a b : PlacedBody α) : Option Skip :=
  if a.link = b.link && isAttached a && isAttached b then some (.attachedTo (Text.optional a.link))
  else if isOwn a && isOwn b && c.isNeighbour a.name b.name && !isForbidden allowed a.name b.name then
    some .adjacent
  else if isAllowed allowed a.name b.name then some .allowed
  else if a.touch.contains b.name || b.touch.contains a.name then some .touching
  else none

/-- A pair as it is looked at or passed over. -/
def candidate (c : RobotChecker α) (allowed : Option AllowedCollisions) (a b : PlacedBody α) : Candidate α :=
  match c.skip? allowed a b with
  | some why => .skipped a.name b.name why
  | none => .pair a b

/-- The pairs of bodies in the order in which they are looked at (`_self_pairs`). -/
def candidates (c : RobotChecker α) (allowed : Option AllowedCollisions) (bodies : List (PlacedBody α)) :
    List (Candidate α) :=
  (RobotModel.pairs bodies).map fun (a, b) => c.candidate allowed a b

/-! ## Queries -/

/-- The bodies that a request is about. -/
def requested (c : RobotChecker α) (inv : Inventory α) (m : RobotModel α) (poses : LinkPoses α)
    (request : CollisionRequest α) : Except (Error α) (List (PlacedBody α)) := do
  request.validate
  let links ← group m request.group
  c.placed inv poses links

/-- Looks for collisions between the bodies of a robot (`check_self_collision`). The result is added
    to. -/
def check (c : RobotChecker α) (inv : Inventory α) (m : RobotModel α) (poses : LinkPoses α)
    (allowed : Option AllowedCollisions) (request : CollisionRequest α) (result : CollisionResult α) : Check α :=
  match c.requested inv m poses request with
  | .error e => Check.refused result e
  | .ok bodies => Check.run request (c.candidates allowed bodies) result #[]

/-- The query for the least distance between the bodies of a group (`distance_self`). -/
def distance (c : RobotChecker α) (inv : Inventory α) (m : RobotModel α) (poses : LinkPoses α)
    (allowed : Option AllowedCollisions) (group : Option String) : Check α :=
  c.check inv m poses allowed (CollisionRequest.forDistance group) CollisionResult.empty

end RobotChecker

end Clearance
