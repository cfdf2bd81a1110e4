import Clearance.Collision.Body
import Clearance.Collision.PairKey

/-!
# Pairs of bodies

Two placed bodies are compared by looking up the surface samples of each in the distance field of
the other. The bodies collide if the least of the distances is not positive.

* `PlacedPair.hits`: the samples of both bodies with their distances and directions.
* `collides`, `collidingPlaces`: the verdict, and the samples behind it, the deepest first.
* `PlacedPair.gap`: the distance between the spheres around the bodies.
-/

namespace Clearance

/-- A body at a pose in the world, as a query sees it. -/
structure PlacedBody (α : Type) where
  name : String
  /-- The link to which the body belongs; an obstacle belongs to none. -/
  link : Option String
  type : String
  body : Body α
  pose : Pose α
  /-- The names that the body may touch. -/
  touch : List String

/-- A sample of one body in the field of the other: the distance, the place in the world, and the
    direction from the body that comes first by name to the other. -/
structure Hit (α : Type) where
  distance : α
  position : Vec3 α
  normal : Vec3 α
  deriving Repr, DecidableEq

/-! ## Verdicts on lists of distances -/

section Distances

variable {α : Type} [Scalar α]

/-- Whether a least distance means a collision; without any samples there is none
    (`in_collision`). -/
def collides (least : Option α) : Bool :=
  match least with
  | some d => Scalar.le d 0
  | none => false

/-- The places of the distances that are not positive, by ascending distance, and by place where
    distances are equal (`colliding_indices`). -/
def collidingPlaces (distances : List α) : List Nat :=
  (((List.range distances.length).zip distances).filter fun e => Scalar.le e.2 0)
    |>.mergeSort (fun e f => Scalar.le e.2 f.2)
    |>.map Prod.fst

/-- The smaller of two least distances, either of which can be infinite. One that is not a number is
    passed over. -/
def lesser (kept found : Option α) : Option α :=
  match kept, found with
  | kept, none => kept
  | none, some d => if Scalar.isBelowTop d then some d else none
  | some a, some d => some (if Scalar.lt d a then d else a)

end Distances

/-! ## Two placed bodies -/

namespace PlacedBody

variable {α : Type} [Scalar α]

/-- What a placed body owns; a released body has lost it. -/
def content (b : PlacedBody α) : Except Fault (BodyContent α) :=
  match b.body.content with
  | some c => .ok c
  | none => .error .attribute

/-- The centre of the sphere around a placed body, in the world. -/
def center (b : PlacedBody α) : Vec3 α := b.pose.toWorld b.body.center

end PlacedBody

/-- A sample in the world, looked up in a field at a pose. -/
@[inline] def Hit.lookUp {α : Type} [Scalar α] (pose : Pose α) (field : DistanceField α) (p : Vec3 α) : Hit α :=
  let (distance, direction) := field.sample (pose.rowToLocal p)
  ⟨distance, p, pose.toMotion.rotateRow direction⟩

/-- The same sample with the opposite direction. -/
def Hit.opposite {α : Type} [Scalar α] (h : Hit α) : Hit α := { h with normal := -h.normal }

/-- Two placed bodies with what they own. -/
structure PlacedPair (α : Type) where
  first : PlacedBody α
  second : PlacedBody α
  firstContent : BodyContent α
  secondContent : BodyContent α

namespace PlacedPair

variable {α : Type} [Scalar α]

/-- Two placed bodies, neither of which may be released (`evaluate_pair`). -/
def of (a b : PlacedBody α) : Except Fault (PlacedPair α) := do
  return ⟨a, b, ← a.content, ← b.content⟩

/-- The names of a pair, the smaller one first. -/
def key (p : PlacedPair α) : String × String := pairKey p.first.name p.second.name

/-- The types of the two bodies in the order of the names. -/
def types (p : PlacedPair α) : String × String :=
  if p.first.name = p.key.1 then (p.first.type, p.second.type) else (p.second.type, p.first.type)

/-- The samples of one body in the field of another (`_query`). -/
def hitsIn (owner other : PlacedBody α) (field : DistanceField α) (samples : List (Vec3 α)) : List (Hit α) :=
  samples.map fun s => Hit.lookUp owner.pose field (other.pose.toMotion.applyRow s)

/-- Directions lead away from the body whose field it is; they are turned round if its name is not
    the first. -/
def oriented (p : PlacedPair α) (owner : PlacedBody α) (hits : List (Hit α)) : List (Hit α) :=
  if owner.name = p.key.1 then hits else hits.map Hit.opposite

/-- The samples of the second body in the field of the first, then those of the first in the field
    of the second (`evaluate_pair`). -/
def hits (p : PlacedPair α) : List (Hit α) :=
  p.oriented p.first (hitsIn p.first p.second p.firstContent.field p.secondContent.samples) ++
    p.oriented p.second (hitsIn p.second p.first p.secondContent.field p.firstContent.samples)

/-- The distance between the spheres around two bodies. -/
def gapBetween (a b : PlacedBody α) : α := (a.center - b.center).norm - a.body.radius - b.body.radius

/-- The distance between the spheres (`bounding_gap`). -/
def gap (p : PlacedPair α) : α := gapBetween p.first p.second

/-- Bodies whose spheres are farther apart than this are not looked at. -/
def margin (p : PlacedPair α) : α := p.firstContent.field.resolution + p.secondContent.field.resolution

/-- Whether a pair is too far apart to be looked at. -/
def isFar (p : PlacedPair α) : Bool := Scalar.lt p.margin p.gap

end PlacedPair

end Clearance
