import Clearance.Field.Build
import Clearance.Field.Cache

/-!
# Bodies

A body is what collides: placed shapes, the distance field of their union, and samples of their
surface, all seen from the frame of the body's owner, and a sphere around the samples. A body can be
released; then nothing is left of it but its name and its sphere.

* `Body.samplesOf`: the samples of placed shapes.
* `Body.enclosing`: the sphere around samples.
* `Body.isReleased`, `Body.holds`: whether a body is released, and which kept field it owns.
-/

namespace Clearance

/-- What a body is: a link's own body, a body attached to a link with the names that it may touch,
    or an obstacle at a pose in the world. -/
inductive BodyRole (α : Type) where
  | link
  | attached (link : String) (touch : List String)
  | obstacle (pose : Pose α)
  deriving Repr, DecidableEq

/-- The type of a body, as contacts name it. -/
def BodyRole.type {α : Type} : BodyRole α → String
  | .link => "robot_link"
  | .attached _ _ => "robot_attached"
  | .obstacle _ => "world_object"

/-- The word for a role in descriptions. -/
def BodyRole.word {α : Type} : BodyRole α → String
  | .link => "CollisionBody"
  | .attached _ _ => "AttachedBody"
  | .obstacle _ => "WorldObject"

/-- A field kept in one of several caches. -/
structure FieldHold (α : Type) where
  cache : Nat
  key : FieldKey α
  deriving Repr, DecidableEq

/-- What a body owns until it is released. -/
structure BodyContent (α : Type) where
  shapes : List (PlacedShape α)
  field : DistanceField α
  /-- The kept field of which this body is an owner; a field that is kept nowhere is the body's
      alone. -/
  hold : Option (FieldHold α)
  samples : List (Vec3 α)

/-- A body (`CollisionBody`). -/
structure Body (α : Type) where
  name : String
  role : BodyRole α
  /-- Absent once the body is released. -/
  content : Option (BodyContent α)
  center : Vec3 α
  radius : α

/-- How bodies are made: the parameters of their grids, the spacing of their samples, and the cache
    in which their fields are kept, if in any. -/
structure BodyParams (α : Type) where
  grid : GridParams α
  spacing : Option (Given α)
  cache : Option Nat
  deriving Repr, DecidableEq

/-- The spacing of samples: the given one, or the resolution of the field. -/
def BodyParams.sampleSpacing {α : Type} [Scalar α] (params : BodyParams α) (field : DistanceField α) :
    Except Fault α :=
  match params.spacing with
  | none => .ok field.resolution
  | some given => given.compare?

namespace Body

variable {α : Type}

/-- Whether a body is released (`released`). -/
def isReleased (b : Body α) : Bool := b.content.isNone

/-- The shapes of a body; a released one has none. -/
def shapes (b : Body α) : List (PlacedShape α) := (b.content.map BodyContent.shapes).getD []

/-- The kept field that a body owns. -/
def hold? (b : Body α) : Option (FieldHold α) := b.content.bind BodyContent.hold

/-- The body without what it owned. -/
def released (b : Body α) : Body α := { b with content := none }

/-- The description of a body. -/
def written (b : Body α) : String :=
  "<" ++ b.role.word ++ " " ++ b.name ++ " shapes=" ++ toString b.shapes.length ++
    (if b.isReleased then " released" else "") ++ ">"

variable [Scalar α]

/-- Whether a body owns a field under a key of a cache. -/
def holds (b : Body α) (cache : Nat) (key : FieldKey α) : Bool :=
  match b.hold? with
  | some h => h.cache == cache && h.key.same key
  | none => false

/-- The spacing of samples has to be positive if it is given. -/
def checkSpacing : Option (Given α) → Except (Error α) Unit
  | none => .ok ()
  | some given => do
    let s ← Fault.lift given.compare?
    if Scalar.lt 0 s then return () else throw (.spacingNotPositive given)

/-- Samples of the surfaces of placed shapes. -/
def samplesOf (shapes : List (PlacedShape α)) (spacing : α) : Except Fault (List (Vec3 α)) := do
  let samples ← shapes.mapM fun p => (p.shape.surfacePoints spacing).map p.pose.toMotion.applyRows
  return samples.flatten

/-- The sphere around samples: its centre is that of their bounding box. -/
def enclosing (samples : List (Vec3 α)) : Except Fault (Vec3 α × α) :=
  match Vec3.minimum samples, Vec3.maximum samples with
  | some lo, some hi =>
    let center := (lo + hi).scale 0.5
    match Scalar.maximum (samples.map fun p => (p - center).norm) with
    | some radius => .ok (center, radius)
    | none => .error .value
  | _, _ => .error .value

end Body

end Clearance
