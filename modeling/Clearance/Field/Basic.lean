import Clearance.Error
import Clearance.Field.Grid
import Clearance.Geometry.Vec3

/-!
# Distance fields

A distance field holds signed distances at the centres of a grid of voxels, and for each voxel the
direction in which the distance grows fastest. Between centres both are interpolated; outside of the
grid the distance to the grid is added.

* `DistanceField.make`: the field of given distances, whose directions are differences of neighbours
  unless they are given.
* `DistanceField.sample`: distance and direction at a point.
-/

namespace Clearance

/-- Signed distances and directions at the centres `origin + resolution * (i, j, k)`
    (`DistanceField`). -/
structure DistanceField (α : Type) where
  origin : Vec3 α
  resolution : α
  data : Grid α
  /-- The direction at a voxel, of length one or zero. -/
  gradient : Nat → Nat → Nat → Vec3 α

namespace DistanceField

variable {α : Type} [Scalar α]

/-! ## Directions -/

/-- Vectors shorter than this have no direction. -/
def directionTolerance : α := 1e-12

/-- The direction of a vector, zero if it has none. -/
@[inline] def direction (v : Vec3 α) : Vec3 α :=
  let n := v.norm
  if Scalar.lt directionTolerance n then v.divide n else ⟨0, 0, 0⟩

/-- The slope of values along a line of `n` voxels: across both neighbours inside, to the one
    neighbour at an end. -/
@[inline] def slope (h : α) (n : Nat) (f : Nat → α) (i : Nat) : α :=
  if i = 0 then (f 1 - f 0) / h
  else if i + 1 = n then (f i - f (i - 1)) / h
  else (f (i + 1) - f (i - 1)) / (2 * h)

/-- The slopes of the distances along the three axes. -/
def slopes (data : Grid α) (h : α) (i j k : Nat) : Vec3 α :=
  ⟨slope h data.nx (fun i' => data.getD i' j k 0) i, slope h data.ny (fun j' => data.getD i j' k 0) j,
   slope h data.nz (fun k' => data.getD i j k' 0) k⟩

/-! ## Places -/

/-- The coordinate of a voxel centre along an axis. -/
@[inline] def coord (origin resolution : α) (i : Nat) : α := origin + Scalar.ofInt (i : Int) * resolution

/-- The centre of a voxel. -/
@[inline] def center (origin : Vec3 α) (resolution : α) (i j k : Nat) : Vec3 α :=
  ⟨coord origin.x resolution i, coord origin.y resolution j, coord origin.z resolution k⟩

variable (f : DistanceField α)

/-- The number of voxels along each axis (`dims`). -/
def dims : Vec3 Nat := ⟨f.data.nx, f.data.ny, f.data.nz⟩

/-- The number of voxels (`num_voxels`). -/
def numVoxels : Nat := f.data.size

/-- The centre of the last voxel (`bounds`). -/
def upper : Vec3 α := center f.origin f.resolution (f.data.nx - 1) (f.data.ny - 1) (f.data.nz - 1)

/-- The centres of all voxels, the third index running fastest (`grid_points`). -/
def gridPoints : List (Vec3 α) :=
  (List.range f.data.nx).flatMap fun i => (List.range f.data.ny).flatMap fun j =>
    (List.range f.data.nz).map fun k => center f.origin f.resolution i j k

/-- Whether a point lies outside of the box of the voxel centres (`is_out_of_bounds`). -/
def isOutOfBounds (p : Vec3 α) : Bool :=
  let u := f.upper
  Scalar.lt p.x f.origin.x || Scalar.lt p.y f.origin.y || Scalar.lt p.z f.origin.z ||
    Scalar.lt u.x p.x || Scalar.lt u.y p.y || Scalar.lt u.z p.z

/-! ## Interpolation -/

/-- The voxel before a coordinate, at most the last but one, found from an estimate by at most one
    step. -/
def cell (origin resolution : α) (n : Nat) (x : α) : Nat :=
  let guess := Nat.min (Scalar.floor ((x - origin) / resolution)).toNat (n - 2)
  if 0 < guess && Scalar.lt x (coord origin resolution guess) then guess - 1
  else if guess + 2 < n && Scalar.le (coord origin resolution (guess + 1)) x then guess + 1
  else guess

/-- How far between the voxel `i` and the next a coordinate lies, from zero to one. -/
@[inline] def share (origin resolution : α) (i : Nat) (x : α) : α :=
  let a := coord origin resolution i
  (x - a) / (coord origin resolution (i + 1) - a)

/-- The weighted mean of the values at the eight corners of a cell. -/
@[inline] def trilinear (value : Nat → Nat → Nat → α) (i j k : Nat) (u v w : α) : α :=
  value i j k * ((1 - u) * (1 - v) * (1 - w)) + value i j (k + 1) * ((1 - u) * (1 - v) * w) +
    value i (j + 1) k * ((1 - u) * v * (1 - w)) + value i (j + 1) (k + 1) * ((1 - u) * v * w) +
    value (i + 1) j k * (u * (1 - v) * (1 - w)) + value (i + 1) j (k + 1) * (u * (1 - v) * w) +
    value (i + 1) (j + 1) k * (u * v * (1 - w)) + value (i + 1) (j + 1) (k + 1) * (u * v * w)

/-- The weighted mean of the vectors at the eight corners of a cell. -/
@[inline] def trilinearVec (value : Nat → Nat → Nat → Vec3 α) (i j k : Nat) (u v w : α) : Vec3 α :=
  (value i j k).scale ((1 - u) * (1 - v) * (1 - w)) + (value i j (k + 1)).scale ((1 - u) * (1 - v) * w) +
    (value i (j + 1) k).scale ((1 - u) * v * (1 - w)) + (value i (j + 1) (k + 1)).scale ((1 - u) * v * w) +
    (value (i + 1) j k).scale (u * (1 - v) * (1 - w)) + (value (i + 1) j (k + 1)).scale (u * (1 - v) * w) +
    (value (i + 1) (j + 1) k).scale (u * v * (1 - w)) + (value (i + 1) (j + 1) (k + 1)).scale (u * v * w)

/-- Distance and direction interpolated at a point of the grid's box. -/
def interpolate (p : Vec3 α) : α × Vec3 α :=
  let i := cell f.origin.x f.resolution f.data.nx p.x
  let j := cell f.origin.y f.resolution f.data.ny p.y
  let k := cell f.origin.z f.resolution f.data.nz p.z
  let u := share f.origin.x f.resolution i p.x
  let v := share f.origin.y f.resolution j p.y
  let w := share f.origin.z f.resolution k p.z
  (trilinear (fun a b c => f.data.getD a b c 0) i j k u v w, trilinearVec f.gradient i j k u v w)

/-- Distance and direction at a point. A point outside of the box is first moved to the nearest
    point of the box; the way there is added to the distance, and its direction is the direction
    away from the box. -/
def sample (p : Vec3 α) : α × Vec3 α :=
  let inside := p.clip f.origin f.upper
  let offset := p - inside
  let away := offset.norm
  let (d, g) := f.interpolate inside
  let g' := if Scalar.lt 0 away then offset.divide away else g
  (d + away, direction g')

/-- Distances and directions at points (`signed_distance`). -/
def signedDistances (points : List (Vec3 α)) : List (α × Vec3 α) := points.map f.sample

/-- A field of its own with the same parts; its directions are brought to length one again
    (`copy`). -/
def copy : DistanceField α := { f with gradient := fun i j k => direction (f.gradient i j k) }

/-! ## Construction -/

/-- Whether the centres along an axis are in ascending order. -/
def ascending (origin resolution : α) (n : Nat) : Bool :=
  (List.range (n - 1)).all fun i => Scalar.lt (coord origin resolution i) (coord origin resolution (i + 1))

/-- Distances need a grid with two voxels along each axis. -/
def checkDims (nx ny nz : Nat) : Except (Error α) Unit :=
  if nx < 2 || ny < 2 || nz < 2 then .error (.fieldDims [nx, ny, nz]) else .ok ()

/-- A resolution is finite and positive. -/
def checkResolution (resolution : α) : Except (Error α) Unit :=
  if Scalar.isFinite resolution && Scalar.lt 0 resolution then .ok () else .error (.fieldResolution resolution)

/-- The centres have to be told apart along each axis. -/
def checkCenters (origin : Vec3 α) (resolution : α) (data : Grid α) : Except (Error α) Unit :=
  if ascending origin.x resolution data.nx && ascending origin.y resolution data.ny &&
    ascending origin.z resolution data.nz then .ok () else .error (.fault .value)

/-- The field with the given distances. -/
def ofData (data : Grid α) (origin : Vec3 α) (resolution : α) : Except (Error α) (DistanceField α) := do
  checkDims data.nx data.ny data.nz
  checkResolution resolution
  checkCenters origin resolution data
  return ⟨origin, resolution, data, fun i j k => direction (slopes data resolution i j k)⟩

/-- The field with the given distances and directions, which are brought to length one. -/
def ofDataAndGradients (data : Grid α) (gradients : Grid (Vec3 α)) (origin : Vec3 α) (resolution : α) :
    Except (Error α) (DistanceField α) := do
  checkDims data.nx data.ny data.nz
  checkResolution resolution
  checkCenters origin resolution data
  return ⟨origin, resolution, data, fun i j k => direction (gradients.getD i j k ⟨0, 0, 0⟩)⟩

end DistanceField

end Clearance
