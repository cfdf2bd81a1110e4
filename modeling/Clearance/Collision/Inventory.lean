import Clearance.Collision.Body

/-!
# The inventory of bodies

All bodies that were ever built, with the caches in which their fields are kept and the events of
building them. Others refer to a body by its place in the inventory, so a released body is released
for all of them. What is done before a failure stays done: a field that was acquired for a body that
then could not be finished keeps its owner.

* `Inventory.build`: one more body.
* `Inventory.release`: releases a body once; again does nothing.
* `Inventory.ownersOf`: how many bodies own a field.
-/

namespace Clearance

/-- The bodies by their places, the caches by theirs, and the events so far. -/
structure Inventory (α : Type) where
  settings : Settings α
  caches : Array (FieldCache α)
  bodies : Array (Body α)
  events : Array (Event α)

/-- A computation that changes the inventory and may fail. -/
abbrev InventoryM (α : Type) := ExceptT (Error α) (StateM (Inventory α))

/-- What a body is to be built of. -/
structure BodySource (α : Type) where
  name : String
  /-- The role, which can be a failure of its own and is looked at last. -/
  role : Except Fault (BodyRole α)
  shapes : List (ShapeSource α)
  poses : Option (List (PoseSource α))

namespace Inventory

variable {α : Type}

/-- The inventory without bodies and caches. -/
def empty (settings : Settings α) : Inventory α := ⟨settings, #[], #[], #[]⟩

/-- Reports an event. -/
def report (e : Event α) : InventoryM α Unit := modify fun inv => { inv with events := inv.events.push e }

/-- Reports events in order. -/
def reportAll (es : List (Event α)) : InventoryM α Unit :=
  modify fun inv => { inv with events := inv.events ++ es.toArray }

/-- An elementary operation as part of a computation. -/
def attempt {β : Type} (x : Except Fault β) : InventoryM α β := ExceptT.mk (pure (Fault.lift x))

/-- The body at a place. -/
def body? (inv : Inventory α) (id : Nat) : Option (Body α) := inv.bodies[id]?

/-- Lays out one more cache, and gives its place. -/
def newCache : InventoryM α Nat := do
  let inv ← get
  set { inv with caches := inv.caches.push ⟨[], 0, 0⟩ }
  return inv.caches.size

/-- Enters a body, and gives its place. -/
def enter (b : Body α) : InventoryM α Nat := do
  let inv ← get
  set { inv with bodies := inv.bodies.push b }
  return inv.bodies.size

variable [Scalar α]

/-- The cache at a place. -/
def cache (inv : Inventory α) (id : Nat) : FieldCache α := inv.caches.getD id FieldCache.empty

/-- How many bodies own the field under a key of a cache. -/
def ownersOf (inv : Inventory α) (cache : Nat) (key : FieldKey α) : Nat :=
  inv.bodies.toList.countP fun b => b.holds cache key

/-! ## Fields of bodies -/

/-- The shapes as they are handed on for a field. -/
def sources (shapes : List (PlacedShape α)) : List (ShapeSource α) := shapes.map fun p => .shape p.shape

/-- The poses as they are handed on for a field. -/
def poseSources (shapes : List (PlacedShape α)) : Option (List (PoseSource α)) :=
  some (shapes.map fun p => .pose p.pose)

/-- A field for placed shapes: from a cache, which gets one more owner, or built for this body
    alone. -/
def obtainField (shapes : List (PlacedShape α)) (params : BodyParams α) :
    InventoryM α (DistanceField α × Option (FieldHold α)) := do
  let inv ← get
  match params.cache with
  | none =>
    let built := DistanceField.ofShapes inv.settings (sources shapes) (poseSources shapes) params.grid
    reportAll built.2
    return (← built.1, none)
  | some id =>
    let acquired := (inv.cache id).acquire inv.settings (sources shapes) (poseSources shapes) params.grid
    set { inv with caches := inv.caches.setIfInBounds id acquired.cache }
    reportAll acquired.events
    let (field, key) ← acquired.outcome
    return (field, some ⟨id, key⟩)

/-! ## Building and releasing -/

/-- Checked shapes at checked poses, at least one, for a body of a name. -/
def placedShapes (source : BodySource α) : Except (Error α) (List (PlacedShape α)) := do
  let shapes ← source.shapes.mapM ShapeSource.validate
  if shapes.isEmpty then throw (.bodyWithoutShapes source.name)
  let poses ← FieldPlan.alignPoses shapes.length source.poses
  return List.zipWith PlacedShape.mk shapes poses

/-- The body of placed shapes and their field: its surface is sampled, and the role comes last. -/
def finish (source : BodySource α) (params : BodyParams α) (shapes : List (PlacedShape α))
    (field : DistanceField α) (hold : Option (FieldHold α)) : Except Fault (Body α) := do
  let spacing ← params.sampleSpacing field
  let samples ← Body.samplesOf shapes spacing
  let (center, radius) ← Body.enclosing samples
  let role ← source.role
  return ⟨source.name, role, some ⟨shapes, field, hold, samples⟩, center, radius⟩

/-- Builds a body and enters it (`CollisionBody`). Shapes, poses and spacing are checked, then the
    field is obtained, and then the body is finished. -/
def build (source : BodySource α) (params : BodyParams α) : InventoryM α Nat := do
  let shapes ← placedShapes source
  Body.checkSpacing params.spacing
  let (field, hold) ← obtainField shapes params
  enter (← attempt (finish source params shapes field hold))

/-- The inventory with one owner less of a kept field. -/
def dropHold (inv : Inventory α) (h : FieldHold α) : Inventory α :=
  { inv with caches := inv.caches.setIfInBounds h.cache ((inv.cache h.cache).release h.key) }

/-- The inventory in which a body is released (`release`). The kept field that it owns loses an
    owner; a body that is released already stays as it is. -/
def releaseBody (inv : Inventory α) (id : Nat) : Inventory α :=
  match inv.body? id with
  | none => inv
  | some b =>
    let inv' := match b.hold? with
      | some h => inv.dropHold h
      | none => inv
    { inv' with bodies := inv'.bodies.setIfInBounds id b.released }

/-- Releases a body. -/
def release (id : Nat) : InventoryM α Unit := modify fun inv => inv.releaseBody id

end Inventory

end Clearance
