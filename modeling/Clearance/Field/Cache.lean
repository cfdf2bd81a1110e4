import Clearance.Field.Build

/-!
# The cache of fields

Building a field is costly, so fields are kept under a key made of what they were built from. An
entry counts its owners, lives as long as it has one, and hands every owner a copy.

* `FieldKey.make`: the key of shapes, poses and grid parameters.
* `FieldCache.acquire`: a field with one more owner, built if it is not there.
* `FieldCache.release`: one owner less; the last one takes the entry with it.
* `FieldCache.owners`, `FieldCache.contains`: the view through which a cache is read.
-/

namespace Clearance

/-- What a field is recognised by. -/
structure FieldKey (α : Type) where
  shapes : List (Digest α)
  /-- The rotations and positions of the shapes, rounded. -/
  poses : List (Motion α)
  resolution : Given α
  padding : Option (Given α)
  maxDims : Option (Given α)
  deriving Repr, DecidableEq

namespace FieldKey

variable {α : Type} [Scalar α]

/-- A pose with its numbers rounded to the places by which keys are told apart. -/
def roundedPose (p : Pose α) : Motion α :=
  let round := Scalar.roundScaled (α := α) keyPlaces
  ⟨p.position.map round, ⟨p.rotation.row1.map round, p.rotation.row2.map round, p.rotation.row3.map round⟩⟩

/-- Whether two vectors have equal coordinates. -/
def sameVec (u v : Vec3 α) : Bool := Scalar.eq u.x v.x && Scalar.eq u.y v.y && Scalar.eq u.z v.z

/-- Whether two rounded poses have equal entries. -/
def samePose (p q : Motion α) : Bool :=
  sameVec p.rotation.row1 q.rotation.row1 && sameVec p.rotation.row2 q.rotation.row2 &&
    sameVec p.rotation.row3 q.rotation.row3 && sameVec p.shift q.shift

/-- Whether two lists agree in length and place by place. -/
def sameAll {β : Type} (same : β → β → Bool) : List β → List β → Bool
  | [], [] => true
  | a :: as, b :: bs => same a b && sameAll same as bs
  | _, _ => false

/-- Whether two optional parameters are both missing or the same. -/
def sameOption : Option (Given α) → Option (Given α) → Bool
  | none, none => true
  | some a, some b => a.same b
  | _, _ => false

/-- Whether two keys are the same: numbers are compared by value. -/
def same (a b : FieldKey α) : Bool :=
  sameAll Digest.same a.shapes b.shapes && sameAll samePose a.poses b.poses && a.resolution.same b.resolution &&
    sameOption a.padding b.padding && sameOption a.maxDims b.maxDims

/-- A parameter that is neither a number nor a text cannot be part of a key. -/
def checkParam : Option (Given α) → Except Fault Unit
  | some .other => .error .kind
  | _ => .ok ()

/-- The key of shapes, poses and grid parameters (`_key`). The default resolution is looked up
    first, then the poses are read, and then the shapes. -/
def make (settings : Settings α) (shapes : List (ShapeSource α)) (poses : Option (List (PoseSource α)))
    (params : GridParams α) : Except (Error α) (FieldKey α) := do
  let resolution ← match params.resolution with
    | none => (settings.defaultResolution).map Given.real
    | some given => pure given
  let poses ← (poses.getD (List.replicate shapes.length .absent)).mapM PoseSource.toPose
  let shapes ← shapes.mapM ShapeSource.validate
  let params' := [some resolution, params.padding, params.maxDims]
  Fault.lift (params'.forM checkParam)
  return ⟨shapes.map Shape.digest, poses.map roundedPose, resolution, params.padding, params.maxDims⟩

end FieldKey

/-- A field that is kept, with the number of its owners. -/
structure CacheEntry (α : Type) where
  key : FieldKey α
  field : DistanceField α
  owners : Nat

/-- The kept fields in the order in which they were built, and how often a field was found or not
    (`DistanceFieldCache`). -/
structure FieldCache (α : Type) where
  entries : List (CacheEntry α)
  hits : Nat
  misses : Nat

namespace FieldCache

variable {α : Type} [Scalar α]

/-- The cache without fields. -/
def empty : FieldCache α := ⟨[], 0, 0⟩

instance : Inhabited (FieldCache α) := ⟨empty⟩

/-- The entry under a key. -/
def find? (c : FieldCache α) (key : FieldKey α) : Option (CacheEntry α) :=
  c.entries.find? fun e => e.key.same key

/-- Whether a field is kept under a key. -/
def contains (c : FieldCache α) (key : FieldKey α) : Bool := (c.find? key).isSome

/-- How many owners the field under a key has (`owners`). -/
def owners (c : FieldCache α) (key : FieldKey α) : Nat :=
  match c.find? key with
  | some e => e.owners
  | none => 0

/-- The number of kept fields. -/
def size (c : FieldCache α) : Nat := c.entries.length

/-- The cache with the owners of the entry under a key counted anew; an entry without owners is
    dropped. -/
def setOwners (c : FieldCache α) (key : FieldKey α) (count : Nat → Nat) : FieldCache α :=
  { c with entries := c.entries.filterMap fun e =>
      if e.key.same key then
        let n := count e.owners
        if n = 0 then none else some { e with owners := n }
      else some e }

/-- One owner less under a key; nothing happens if there is no such entry (`release`). -/
def release (c : FieldCache α) (key : FieldKey α) : FieldCache α := c.setOwners key (· - 1)

/-- Drops all fields (`clear`). -/
def clear (c : FieldCache α) : FieldCache α := { c with entries := [] }

/-- What became of asking for a field: the field and its key or an error, the cache, and the
    events. -/
structure Acquired (α : Type) where
  outcome : Except (Error α) (DistanceField α × FieldKey α)
  cache : FieldCache α
  events : List (Event α)

/-- Asks for a field (`acquire`). It is built and entered if it is not there, gets one more owner,
    and a copy of it is handed out. A field that cannot be built is not entered. -/
def acquire (c : FieldCache α) (settings : Settings α) (shapes : List (ShapeSource α))
    (poses : Option (List (PoseSource α))) (params : GridParams α) : Acquired α :=
  match FieldKey.make settings shapes poses params with
  | .error e => ⟨.error e, c, []⟩
  | .ok key =>
    match c.find? key with
    | some e => ⟨.ok (e.field.copy, key), { c.setOwners key (· + 1) with hits := c.hits + 1 }, []⟩
    | none =>
      let missed := { c with misses := c.misses + 1 }
      let built := DistanceField.ofShapes settings shapes poses { params with resolution := some key.resolution }
      match built.1 with
      | .error e => ⟨.error e, missed, built.2⟩
      | .ok field =>
        ⟨.ok (field.copy, key), { missed with entries := c.entries ++ [⟨key, field, 1⟩] }, built.2⟩

end FieldCache

end Clearance
