import Clearance.Collision.World

/-!
# Sessions

A session is what is at hand while robots are modelled and checked: one inventory on which
everything is built, the models and states made so far, the table of allowed collisions, the
checkers, the bodies that were kept, and the result to which queries add. A step of a session either
goes through or fails with an error; what it changed before the error stays changed.

* `Session.start`: the session in which nothing was made, with one cache.
* `Session.onInventory`: a computation on the inventory as a step.
* `Session.body`, `Session.keep`, `Session.keptBody`: bodies by their places and by labels.
-/

namespace Clearance

/-- What is at hand. Models, states and bodies are referred to by their places. -/
structure Session (α : Type) where
  inventory : Inventory α
  /-- All models; the last one is at hand. -/
  models : Array (RobotModel α)
  /-- All states, each with the place of its model. -/
  states : Array (RobotState α × Nat)
  /-- The place of the state at hand. -/
  state : Option Nat
  /-- The places of states that were saved under labels. -/
  saved : Table String Nat
  /-- The allowed collisions; without a table none is allowed. -/
  allowed : Option AllowedCollisions
  /-- The checker of a robot, with the place of its model. -/
  robot : Option (RobotChecker α × Nat)
  world : Option (WorldChecker α)
  /-- The bodies of a link that belongs to no checker. -/
  geometry : Option (LinkGeometry α)
  /-- The places of bodies that were kept under labels. -/
  kept : Table String Nat
  result : CollisionResult α

/-- A step of a session, which may fail. -/
abbrev SessionM (α : Type) := ExceptT (Error α) (StateM (Session α))

/-- Where the fields of bodies are kept: in the session's cache, in a new one, or nowhere. -/
inductive CacheChoice where
  | shared
  | own
  | nowhere
  deriving Repr, DecidableEq

namespace Session

variable {α : Type}

/-- The place of the cache that a session starts with. -/
def sharedCache : Nat := 0

/-- The session in which nothing was made. -/
def start (settings : Settings α) : Session α :=
  { inventory := { Inventory.empty settings with caches := #[⟨[], 0, 0⟩] }
    models := #[]
    states := #[]
    state := none
    saved := Table.empty
    allowed := none
    robot := none
    world := none
    geometry := none
    kept := Table.empty
    result := CollisionResult.empty }

/-- What has to be there, or else a fault. -/
def require {β : Type} (f : Fault) (x : Option β) : SessionM α β :=
  match x with
  | some b => pure b
  | none => throw (.fault f)

/-- A computation on the inventory as a step. The inventory is as the computation leaves it, also if
    it fails. -/
def onInventory {β : Type} (x : InventoryM α β) : SessionM α β := do
  let s ← get
  let (outcome, inventory) := x.run s.inventory
  set { s with inventory := inventory }
  ExceptT.mk (pure outcome)

/-- Reports events in order. -/
def reportAll (events : List (Event α)) : SessionM α Unit := onInventory (Inventory.reportAll events)

/-- Takes the events out that were reported so far. -/
def takeEvents : SessionM α (List (Event α)) := do
  let s ← get
  set { s with inventory := { s.inventory with events := #[] } }
  return s.inventory.events.toList

/-! ## Bodies -/

/-- The body at a place. -/
def body (id : Nat) : SessionM α (Body α) := do require .key ((← get).inventory.body? id)

/-- Keeps the place of a body under a label. -/
def keep (label : String) (id : Nat) : SessionM α Unit := modify fun s => { s with kept := s.kept.set label id }

/-- The place of the body that was kept under a label. -/
def keptBody (label : String) : SessionM α Nat := do require .key ((← get).kept.find? label)

/-- The parameters of bodies whose fields are kept as chosen. -/
def bodyParams (p : BodyParams α) (choice : CacheChoice) : SessionM α (BodyParams α) := do
  match choice with
  | .shared => return { p with cache := some sharedCache }
  | .own => return { p with cache := some (← onInventory Inventory.newCache) }
  | .nowhere => return { p with cache := none }

end Session

end Clearance
