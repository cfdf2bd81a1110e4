import Clearance.Session.Robot

/-!
# Checkers of a session

A session has at most one checker of a robot, one of the world, and the bodies of one further link.
Making another takes the place of the one before only if it goes through. The bodies that were built
before a failure stay in the inventory.

* `Session.newRobot`, `Session.newWorld`, `Session.newGeometry`: the checkers.
* `Session.onRobot`, `Session.onWorld`, `Session.onGeometry`: changes of their bodies.
* `Session.selfCheck`, `Session.worldCheck`: queries that add to the session's result.
* `Session.selfDistance`, `Session.worldDistance`: queries that do not.
-/

namespace Clearance.Session

variable {α : Type}

/-! ## The checkers at hand -/

/-- The checker of the robot, and its model. -/
def robotChecker : SessionM α (RobotChecker α × RobotModel α) := do
  let (c, owner) ← require .attribute (← get).robot
  return (c, ← modelAt owner)

/-- The checker of the world. -/
def worldChecker : SessionM α (WorldChecker α) := do require .attribute (← get).world

/-- The bodies of the further link. -/
def linkGeometry : SessionM α (LinkGeometry α) := do require .attribute (← get).geometry

/-- Changes the robot's bodies, unless that fails. -/
def onRobot {β : Type} (f : RobotChecker α → InventoryM α (RobotChecker α × β)) : SessionM α β := do
  let (c, _) ← robotChecker
  let (c, b) ← onInventory (f c)
  modify fun s => { s with robot := s.robot.map fun old => (c, old.2) }
  return b

/-- Changes the obstacles, unless that fails. -/
def onWorld {β : Type} (f : WorldChecker α → InventoryM α (WorldChecker α × β)) : SessionM α β := do
  let (c, b) ← onInventory (f (← worldChecker))
  modify fun s => { s with world := some c }
  return b

/-- Changes the bodies of the further link, unless that fails. -/
def onGeometry {β : Type} (f : LinkGeometry α → InventoryM α (LinkGeometry α × β)) : SessionM α β := do
  let (g, b) ← onInventory (f (← linkGeometry))
  modify fun s => { s with geometry := some g }
  return b

/-- Changes the robot's bodies where nothing more is to be told. -/
def editRobot (f : RobotChecker α → InventoryM α (RobotChecker α)) : SessionM α Unit :=
  onRobot fun c => do return (← f c, ())

/-- Changes the obstacles where nothing more is to be told. -/
def editWorld (f : WorldChecker α → InventoryM α (WorldChecker α)) : SessionM α Unit :=
  onWorld fun c => do return (← f c, ())

/-- Changes the bodies of the further link where nothing more is to be told. -/
def editGeometry (f : LinkGeometry α → InventoryM α (LinkGeometry α)) : SessionM α Unit :=
  onGeometry fun g => do return (← f g, ())

variable [Scalar α]

/-- The checker of the model at hand. -/
def newRobot (neighbours : Option (List (String × String))) (params : BodyParams α) (cache : CacheChoice) :
    SessionM α (RobotChecker α) := do
  let m ← model
  let params ← bodyParams params cache
  let c ← onInventory (RobotChecker.make m neighbours params)
  modify fun s => { s with robot := some (c, s.models.size - 1) }
  return c

/-- The checker of a world without obstacles. -/
def newWorld (params : BodyParams α) (cache : CacheChoice) : SessionM α (WorldChecker α) := do
  let c := WorldChecker.empty (← bodyParams params cache)
  modify fun s => { s with world := some c }
  return c

/-- The bodies of a link that belongs to no checker. -/
def newGeometry (link : String) (shapes : List (ShapeSource α)) (poses : Option (List (PoseSource α)))
    (params : BodyParams α) : SessionM α Unit := do
  let g ← onInventory (LinkGeometry.make link shapes poses (← bodyParams params .shared))
  modify fun s => { s with geometry := some g }

/-- A body on its own, by its place. -/
def newBody (source : BodySource α) (params : BodyParams α) (cache : CacheChoice) : SessionM α Nat := do
  onInventory (Inventory.build source (← bodyParams params cache))

/-! ## Queries -/

/-- What a query has come to: its events are reported, and its error is the step's. -/
def conclude (c : Check α) : SessionM α (CollisionResult α) := do
  reportAll c.events.toList
  match c.failure with
  | some e => throw e
  | none => return c.result

/-- What a query has come to, which the session's result takes over even if the query failed. -/
def record (c : Check α) : SessionM α (CollisionResult α) := do
  modify fun s => { s with result := c.result }
  conclude c

/-- Looks for collisions between the bodies of the robot. -/
def selfCheck (request : CollisionRequest α) : SessionM α (CollisionResult α) := do
  let (c, m) ← robotChecker
  let poses ← linkPoses
  let s ← get
  record (c.check s.inventory m poses s.allowed request s.result)

/-- Looks for collisions between the robot and the obstacles. -/
def worldCheck (request : CollisionRequest α) : SessionM α (CollisionResult α) := do
  let w ← worldChecker
  let (c, m) ← robotChecker
  let poses ← linkPoses
  let s ← get
  record (w.check s.inventory c m poses s.allowed request s.result)

/-- The least distance between the bodies of a group. -/
def selfDistance (group : Option String) : SessionM α (Option α) := do
  let (c, m) ← robotChecker
  let poses ← linkPoses
  let s ← get
  return (← conclude (c.distance s.inventory m poses s.allowed group)).distance

/-- The least distance between the bodies of a group and the obstacles. -/
def worldDistance (group : Option String) : SessionM α (Option α) := do
  let w ← worldChecker
  let (c, m) ← robotChecker
  let poses ← linkPoses
  let s ← get
  return (← conclude (w.distance s.inventory c m poses s.allowed group)).distance

/-- Changes the session's result. -/
def editResult (f : CollisionResult α → CollisionResult α) : SessionM α (CollisionResult α) := do
  modify fun s => { s with result := f s.result }
  return (← get).result

end Clearance.Session
