import Clearance.Collision.Robot

/-!
# Checking a robot against the world

The obstacles of a world are kept under their names in the order in which the names were first
given. An obstacle that is added under a name that is taken replaces the other in its place. A query
looks at all pairs of a body of the robot and an obstacle, but for those that may collide or touch.

* `WorldChecker.add`: one more obstacle. It is built before anything changes.
* `WorldChecker.remove`, `WorldChecker.clear`: takes obstacles away and releases them.
* `WorldChecker.candidates`, `WorldChecker.check`, `WorldChecker.distance`: the pairs and the
  queries.
-/

namespace Clearance

/-- The obstacles by their places in the inventory (`WorldObjectStore`). -/
structure WorldChecker (α : Type) where
  objects : Table String Nat
  params : BodyParams α

namespace WorldChecker

variable {α : Type}

/-- The world without obstacles. -/
def empty (params : BodyParams α) : WorldChecker α := ⟨Table.empty, params⟩

/-- The description of a checker. -/
def written (w : WorldChecker α) : String :=
  "<CollisionWorldDistanceField objects=" ++ Text.quotedList w.objects.keys ++ ">"

/-- The place of the obstacle of a name (`get`). -/
def object (w : WorldChecker α) (name : String) : Except (Error α) Nat :=
  match w.objects.find? name with
  | some id => .ok id
  | none => .error (.unknownObject name)

variable [Scalar α]

/-! ## Obstacles -/

/-- Adds an obstacle of one shape at a pose, and gives its place (`add_to_object`). The pose is read
    first. -/
def add (w : WorldChecker α) (name : String) (shape : ShapeSource α) (pose : PoseSource α) :
    InventoryM α (WorldChecker α × Nat) := do
  let pose ← pose.toPose
  let id ← Inventory.build ⟨name, .ok (.obstacle pose), [shape], none⟩ w.params
  match w.objects.find? name with
  | some previous =>
    Inventory.release previous
    Inventory.report (.objectReplaced name)
  | none => Inventory.report (.objectAdded name)
  return ({ w with objects := w.objects.set name id }, id)

/-- Takes an obstacle away and releases it (`remove_object`). -/
def remove (w : WorldChecker α) (name : String) : InventoryM α (WorldChecker α) := do
  let id ← w.object name
  Inventory.release id
  Inventory.report (.objectRemoved name)
  return { w with objects := w.objects.erase name }

/-- Takes all obstacles away and releases them, which is not reported (`clear_objects`). -/
def clear (w : WorldChecker α) : InventoryM α (WorldChecker α) := do
  w.objects.values.forM Inventory.release
  return { w with objects := Table.empty }

/-! ## Pairs -/

/-- An obstacle at its pose. -/
def placeObject (inv : Inventory α) (id : Nat) : Except (Error α) (Option (PlacedBody α)) :=
  match inv.body? id with
  | some b =>
    match b.role with
    | .obstacle pose => (pose.copy).map fun pose => some ⟨b.name, none, b.role.type, b, pose, []⟩
    | _ => .ok none
  | none => .ok none

/-- The obstacles at their poses. -/
def placed (w : WorldChecker α) (inv : Inventory α) : Except (Error α) (List (PlacedBody α)) :=
  (w.objects.values.mapM (placeObject inv)).map fun bodies => bodies.filterMap id

/-- Why a pair of a robot's body and an obstacle is passed over, if it is. -/
def skip? (allowed : Option AllowedCollisions) (a b : PlacedBody α) : Option Skip :=
  if RobotChecker.isAllowed allowed a.name b.name then some .allowed
  else if a.touch.contains b.name then some .touching
  else none

/-- A pair as it is looked at or passed over. -/
def candidate (allowed : Option AllowedCollisions) (a b : PlacedBody α) : Candidate α :=
  match skip? allowed a b with
  | some why => .skipped a.name b.name why
  | none => .pair a b

/-- The pairs of a robot's bodies and obstacles in the order in which they are looked at
    (`_world_pairs`). -/
def candidates (allowed : Option AllowedCollisions) (bodies objects : List (PlacedBody α)) :
    List (Candidate α) :=
  bodies.flatMap fun a => objects.map fun b => candidate allowed a b

/-! ## Queries -/

/-- Looks for collisions between a robot and the obstacles (`check_robot_collision`). The result is
    added to. -/
def check (w : WorldChecker α) (inv : Inventory α) (c : RobotChecker α) (m : RobotModel α)
    (poses : LinkPoses α) (allowed : Option AllowedCollisions) (request : CollisionRequest α)
    (result : CollisionResult α) : Check α :=
  match c.requested inv m poses request with
  | .error e => Check.refused result e
  | .ok bodies =>
    match w.placed inv with
    | .error e => Check.refused result e
    | .ok objects => Check.run request (candidates allowed bodies objects) result #[]

/-- The query for the least distance between the bodies of a group and the obstacles
    (`distance_robot`). -/
def distance (w : WorldChecker α) (inv : Inventory α) (c : RobotChecker α) (m : RobotModel α)
    (poses : LinkPoses α) (allowed : Option AllowedCollisions) (group : Option String) : Check α :=
  w.check inv c m poses allowed (CollisionRequest.forDistance group) CollisionResult.empty

end WorldChecker

end Clearance
