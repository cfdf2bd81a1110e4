import Clearance.Geometry.Pose
import Clearance.Mesh.Primitives
import Clearance.Mesh.Voxels
import Clearance.Shape.Box
import Clearance.Shape.Cylinder
import Clearance.Shape.Sphere

/-!
# Shapes

The closed family of shapes of which bodies are made. All points are seen from the shape, whose
centre is the origin.

* `Shape.signedDistances`, `Shape.closestPoints`, `Shape.inside`: where points are with respect to
  the surface.
* `Shape.volume`, `Shape.isDegenerate`, `Shape.bounds`: measures.
* `Shape.surfacePoints`: samples of the surface.
* `Shape.digest`: the key by which shapes are recognised.
* `ShapeSource`: whatever may stand where a shape belongs.
-/

namespace Clearance

/-- A box by its extents, a sphere by its radius, a cylinder by radius and height, or a triangle
    mesh. -/
inductive Shape (α : Type) where
  | box (extents : Vec3 α)
  | sphere (radius : α)
  | cylinder (radius height : α)
  | mesh (m : Mesh α)

namespace Shape

variable {α : Type} [Scalar α]

/-- The name of a shape's kind. -/
def kind : Shape α → String
  | .box _ => "box"
  | .sphere _ => "sphere"
  | .cylinder _ _ => "cylinder"
  | .mesh _ => "mesh"

/-! ## Distances -/

/-- A nearest of the points to a point, with its distance; the first of them if several are as
    near. -/
def nearest (samples : List (Vec3 α)) (p : Vec3 α) : Option (α × Vec3 α) :=
  samples.foldl (fun best s =>
    let d := (s - p).norm
    match best with
    | none => some (d, s)
    | some (d', _) => if Scalar.lt d d' then some (d, s) else best) none

/-- The test whether a point is inside the shape or on its surface (`contains`). The sphere and the
    cylinder are tested by their distance, the mesh by its filled voxels. -/
def inside : Shape α → Except Fault (Vec3 α → Bool)
  | .box extents => .ok (Box.contains extents)
  | .sphere radius => .ok fun p => Scalar.le (Sphere.signedDistance radius p) 0
  | .cylinder radius height => .ok fun p => Scalar.le (Cylinder.signedDistance radius height p) 0
  | .mesh m => (VoxelSolid.ofMesh m).map VoxelSolid.contains

/-- Samples of the surface whose distance along it is about the spacing (`surface_points`). -/
def surfacePoints (spacing : α) : Shape α → Except Fault (List (Vec3 α))
  | .box extents => Box.surfacePoints extents spacing
  | .sphere radius => Sphere.surfacePoints radius spacing
  | .cylinder radius height => Cylinder.surfacePoints radius height spacing
  | .mesh m => m.surfacePoints spacing

/-- The surface of a mesh as the points to which its distances are measured. -/
def meshSamples (m : Mesh α) : Except Fault (List (Vec3 α)) := m.surfacePoints (m.pitch.getD 0)

/-- The distances of points to the surface, negative inside (`signed_distance`). -/
def signedDistances (points : List (Vec3 α)) : Shape α → Except Fault (List α)
  | .box extents => .ok (points.map (Box.signedDistance extents))
  | .sphere radius => .ok (points.map (Sphere.signedDistance radius))
  | .cylinder radius height => .ok (points.map (Cylinder.signedDistance radius height))
  | .mesh m => do
    let samples ← meshSamples m
    let contains := (← VoxelSolid.ofMesh m).contains
    return points.filterMap fun p =>
      (nearest samples p).map fun (d, _) => if contains p then -d else d

/-- The nearest points of the surface to points (`closest_point`). -/
def closestPoints (points : List (Vec3 α)) : Shape α → Except Fault (List (Vec3 α))
  | .box extents => .ok (points.map (Box.closestPoint extents))
  | .sphere radius => .ok (points.map (Sphere.closestPoint radius))
  | .cylinder radius height => .ok (points.map (Cylinder.closestPoint radius height))
  | .mesh m => do
    let samples ← meshSamples m
    return points.filterMap fun p => (nearest samples p).map (·.2)

/-! ## Measures -/

/-- The corners of the bounding box. -/
def bounds : Shape α → Except Fault (Vec3 α × Vec3 α)
  | .box extents => .ok (Box.bounds extents)
  | .sphere radius => .ok (Sphere.bounds radius)
  | .cylinder radius height => .ok (Cylinder.bounds radius height)
  | .mesh m => m.bounds

/-- The volume. -/
def volume : Shape α → Except Fault α
  | .box extents => .ok (Box.volume extents)
  | .sphere radius => Sphere.volume radius
  | .cylinder radius height => Cylinder.volume radius height
  | .mesh m => m.volume

/-- A shape is degenerate unless its volume is finite and positive (`is_degenerate`). -/
def isDegenerate (s : Shape α) : Except Fault Bool :=
  s.volume.map fun v => !(Scalar.isFinite v && Scalar.lt 0 v)

/-- The error that a degenerate shape is refused with. -/
def degenerate : Shape α → Error α
  | .box _ => .degenerateBox
  | .sphere radius => .degenerateSphere radius
  | .cylinder radius height => .degenerateCylinder radius height
  | .mesh _ => .degenerateMesh

/-- The bounding box of the shape at a pose: the box around the images of the corners of its own
    (`transformed_bounds`). -/
def boundsAt (s : Shape α) (pose : Pose α) : Except Fault (Vec3 α × Vec3 α) := do
  let (lo, hi) ← s.bounds
  let corners := (Primitive.corners lo hi).map pose.toMotion.applyRow
  return ((Vec3.minimum corners).getD default, (Vec3.maximum corners).getD default)

/-- The shape as a triangulation (`to_trimesh`). -/
def triangulate : Shape α → Except Fault (Triangulation α)
  | .box extents => .ok (Primitive.box extents)
  | .sphere radius => .ok (Primitive.sphere radius)
  | .cylinder radius height => .ok (Primitive.cylinder radius height)
  | .mesh m => m.resolve

end Shape

/-! ## Digests -/

/-- What shapes are recognised by: their kind and their parameters, rounded to twelve places. -/
inductive Digest (α : Type) where
  | box (extents : Vec3 α)
  | sphere (radius : α)
  | cylinder (radius height : α)
  | mesh (content : String) (pitch : α)
  deriving Repr, DecidableEq

namespace Digest

variable {α : Type} [Scalar α]

/-- Digests are compared by the values of their numbers. -/
def same : Digest α → Digest α → Bool
  | .box a, .box b => Scalar.eq a.x b.x && Scalar.eq a.y b.y && Scalar.eq a.z b.z
  | .sphere a, .sphere b => Scalar.eq a b
  | .cylinder a h, .cylinder b k => Scalar.eq a b && Scalar.eq h k
  | .mesh a p, .mesh b q => a == b && Scalar.eq p q
  | _, _ => false

end Digest

/-- The number of decimal places by which keys are told apart. -/
def keyPlaces : Nat := 12

/-- The digest of a shape (`digest`). -/
def Shape.digest {α : Type} [Scalar α] : Shape α → Digest α
  | .box extents => .box (extents.map (Scalar.roundScaled keyPlaces))
  | .sphere radius => .sphere (Scalar.roundPlaces keyPlaces radius)
  | .cylinder radius height =>
    .cylinder (Scalar.roundPlaces keyPlaces radius) (Scalar.roundPlaces keyPlaces height)
  | .mesh m => .mesh (MessageDigest.md5 m.content) (Scalar.roundPlaces keyPlaces (m.pitch.getD 0))

/-! ## Whatever may stand where a shape belongs -/

/-- A shape, something that is a shape of no particular kind, or no shape at all. -/
inductive ShapeSource (α : Type) where
  | shape (s : Shape α)
  | abstract
  | notAShape

/-- Only shapes of a particular kind are accepted (`validate_shape`). -/
def ShapeSource.validate {α : Type} : ShapeSource α → Except (Error α) (Shape α)
  | .shape s => .ok s
  | _ => .error .notAShape

end Clearance
