import Clearance.Shape.Sampling

/-!
# Boxes

A box is given by its full extents along the axes and stands around the origin.

* `Box.signedDistance`, `Box.closestPoint`, `Box.contains`: where a point is with respect to the
  surface.
* `Box.surfacePoints`: a lattice on each of the six faces.
-/

namespace Clearance.Box

variable {α : Type} [Scalar α]

/-- Half of the extents. -/
@[inline] def half (extents : Vec3 α) : Vec3 α := ⟨extents.x * 0.5, extents.y * 0.5, extents.z * 0.5⟩

/-- The distance of a point to the surface, negative inside: outside, the length of the coordinates'
    excess over the half extents, inside, the greatest of the excesses (`signed_distance`). -/
def signedDistance (extents p : Vec3 α) : α :=
  let excess := p.abs - half extents
  let outside := excess.max (Vec3.replicate 0)
  outside.norm + Scalar.min excess.maxCoord 0

/-- Whether a point is inside or on the surface (`contains`). -/
def contains (extents p : Vec3 α) : Bool :=
  let h := half extents
  Scalar.le (Scalar.abs p.x) h.x && Scalar.le (Scalar.abs p.y) h.y && Scalar.le (Scalar.abs p.z) h.z

/-- The face coordinate on the side of a coordinate. -/
@[inline] def faceCoord (x h : α) : α := (if Scalar.le 0 x then 1 else -1) * h

/-- Whether a gap is chosen before others; one that is not a number is chosen before all. -/
@[inline] def comesFirst (gap : α) (others : List α) : Bool :=
  Scalar.isNaN gap || others.all (Scalar.le gap)

/-- The nearest point of the surface (`closest_point`). A point inside goes to the face with the
    least gap, the first of them if several are as near. -/
def closestPoint (extents p : Vec3 α) : Vec3 α :=
  let h := half extents
  if contains extents p then
    let gap := h - p.abs
    if comesFirst gap.x [gap.y, gap.z] then ⟨faceCoord p.x h.x, p.y, p.z⟩
    else if comesFirst gap.y [gap.z] then ⟨p.x, faceCoord p.y h.y, p.z⟩
    else ⟨p.x, p.y, faceCoord p.z h.z⟩
  else p.clip (-h) h

/-- The corners of the bounding box. -/
def bounds (extents : Vec3 α) : Vec3 α × Vec3 α := (-(half extents), half extents)

/-- The volume, zero if an extent is not positive. -/
def volume (extents : Vec3 α) : α :=
  if extents.any (Scalar.le · 0) then 0 else extents.x * extents.y * extents.z

/-- Samples along an axis. -/
def axisSamples (h spacing : α) : Except Fault (List α) :=
  (Sampling.count (2 * h / spacing)).map (Sampling.closed (-h) h)

/-- All pairs of a value from the first and a value from the second list, the second running
    faster. -/
def lattice (us vs : List α) : List (α × α) := us.flatMap fun u => vs.map fun v => (u, v)

/-- Samples of the surface: on each pair of opposite faces the lattice of the samples along the
    other two axes (`surface_points`). -/
def surfacePoints (extents : Vec3 α) (spacing : α) : Except Fault (List (Vec3 α)) := do
  let h := half extents
  let xs ← axisSamples h.x spacing
  let ys ← axisSamples h.y spacing
  let zs ← axisSamples h.z spacing
  let signs : List α := [-1, 1]
  return (signs.flatMap fun s => (lattice ys zs).map fun (y, z) => (⟨s * h.x, y, z⟩ : Vec3 α)) ++
    (signs.flatMap fun s => (lattice xs zs).map fun (x, z) => (⟨x, s * h.y, z⟩ : Vec3 α)) ++
    (signs.flatMap fun s => (lattice xs ys).map fun (x, y) => (⟨x, y, s * h.z⟩ : Vec3 α))

end Clearance.Box
