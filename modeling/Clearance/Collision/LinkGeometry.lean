import Clearance.Collision.Inventory
import Clearance.Table
import Clearance.Text.Quoted

/-!
# The bodies of a link

A link has a body of its own, if it has shapes, and bodies that are attached to it, in the order in
which they were attached. A body that is attached under a name that is taken replaces the other and
goes to the end.

* `LinkGeometry.attach`: one more attached body. It is built before anything changes.
* `LinkGeometry.detach`, `LinkGeometry.detachAll`: takes bodies off and releases them.
* `LinkGeometry.bodies`: the link's own body, then the attached ones.
-/

namespace Clearance

/-- A link's bodies by their places in the inventory (`LinkGeometry`). -/
structure LinkGeometry (α : Type) where
  link : String
  body : Option Nat
  attached : Table String Nat
  params : BodyParams α

/-- A body that is to be attached: shapes and poses seen from the link, and the names that it may
    touch. -/
structure Attachment (α : Type) where
  name : String
  shapes : List (ShapeSource α)
  poses : Option (List (PoseSource α))
  touch : Except Fault (List String)

namespace LinkGeometry

variable {α : Type}

/-- The places of the link's own body and of the attached ones. -/
def bodies (g : LinkGeometry α) : List Nat := g.body.toList ++ g.attached.values

/-- The place of the body that is attached under a name (`attached_body`). -/
def attachedBody (g : LinkGeometry α) (name : String) : Except (Error α) Nat :=
  match g.attached.find? name with
  | some id => .ok id
  | none => .error (.notAttached name g.link)

/-- The description of a link's bodies. -/
def written (g : LinkGeometry α) : String :=
  "<LinkGeometry " ++ g.link ++ " attached=" ++ Text.quotedList g.attached.keys ++ ">"

variable [Scalar α]

/-- The bodies of a link of given shapes. -/
def make (link : String) (shapes : List (ShapeSource α)) (poses : Option (List (PoseSource α)))
    (params : BodyParams α) : InventoryM α (LinkGeometry α) := do
  if shapes.isEmpty then return ⟨link, none, Table.empty, params⟩
  let id ← Inventory.build ⟨link, .ok .link, shapes, poses⟩ params
  return ⟨link, some id, Table.empty, params⟩

/-- Attaches a body, and gives its place (`attach_body`). -/
def attach (g : LinkGeometry α) (a : Attachment α) : InventoryM α (LinkGeometry α × Nat) := do
  let role := a.touch.map fun touch => BodyRole.attached g.link touch
  let id ← Inventory.build ⟨a.name, role, a.shapes, a.poses⟩ g.params
  if let some previous := g.attached.find? a.name then
    Inventory.release previous
    Inventory.report (.bodyReplaced a.name g.link)
  Inventory.report (.bodyAttached a.name a.shapes.length g.link)
  return ({ g with attached := g.attached.push a.name id }, id)

/-- Detaches a body and releases it (`clear_attached_body`). -/
def detach (g : LinkGeometry α) (name : String) : InventoryM α (LinkGeometry α) := do
  let id ← g.attachedBody name
  Inventory.release id
  Inventory.report (.bodyDetached name g.link)
  return { g with attached := g.attached.erase name }

/-- Detaches all bodies and releases them, which is not reported (`clear_attached_bodies`). -/
def detachAll (g : LinkGeometry α) : InventoryM α (LinkGeometry α) := do
  g.attached.values.forM Inventory.release
  return { g with attached := Table.empty }

end LinkGeometry

end Clearance
