import Clearance.Shape.Sampling

/-!
# Cylinders

A cylinder is given by its radius and its height along the third axis and stands around the origin.
What it is to a point depends only on the distance `rho` from the axis and the height `z`, which
leaves a rectangle of the plane.

* `Cylinder.signedDistance`, `Cylinder.closestPoint`: where a point is with respect to the surface.
* `Cylinder.surfacePoints`: rings on the side, then the centres and rings of the two caps.
-/

namespace Clearance.Cylinder

variable {α : Type} [Scalar α]

/-- The distance of a point from the axis. -/
@[inline] def rho (p : Vec3 α) : α := Scalar.sqrt (p.x * p.x + p.y * p.y)

/-- The distance of a point to the surface, negative inside (`signed_distance`). -/
def signedDistance (radius height : α) (p : Vec3 α) : α :=
  let side := Scalar.abs (rho p) - radius
  let cap := Scalar.abs p.z - 0.5 * height
  let side' := Scalar.max side 0
  let cap' := Scalar.max cap 0
  Scalar.sqrt (side' * side' + cap' * cap') + Scalar.min (Scalar.max side cap) 0

/-- Points nearer to the axis than this have no direction of their own. -/
def directionTolerance : α := 1e-12

/-- The nearest point of the surface (`closest_point`). A point inside goes to the side if that is
    strictly nearer than the cap; a point on the axis goes along the first axis. -/
def closestPoint (radius height : α) (p : Vec3 α) : Vec3 α :=
  let top := 0.5 * height
  let r := rho p
  let inside := Scalar.le r radius && Scalar.le (Scalar.abs p.z) top
  let sideCloser := Scalar.lt (radius - r) (top - Scalar.abs p.z)
  let r' := if inside && sideCloser then radius else Scalar.min r radius
  let z' :=
    if inside && !sideCloser then (if Scalar.le 0 p.z then top else -top) else Scalar.clip p.z (-top) top
  let away := Scalar.lt directionTolerance r
  ⟨(if away then p.x / r else 1) * r', (if away then p.y / r else 0) * r', z'⟩

/-- The corners of the bounding box. -/
def bounds (radius height : α) : Vec3 α × Vec3 α :=
  let h := 0.5 * height
  (⟨-radius, -radius, -h⟩, ⟨radius, radius, h⟩)

/-- The volume, zero if radius or height is not positive. -/
def volume (radius height : α) : Except Fault α :=
  if Scalar.le radius 0 || Scalar.le height 0 then .ok 0
  else (Sampling.square radius).map (Scalar.pi * · * height)

/-- The angles of a ring. -/
def angles (n : Nat) : List α := Sampling.cyclic 0 (2 * Scalar.pi) n

/-- The ring of samples at a radius on both caps, first below, then above. -/
def capRing (top spacing rho : α) : Except Fault (List (Vec3 α)) := do
  let n ← Sampling.atLeast 6 (2 * Scalar.pi * rho / spacing)
  return [-top, top].flatMap fun z => (angles n).map fun t => (⟨rho * Scalar.cos t, rho * Scalar.sin t, z⟩ : Vec3 α)

/-- Samples of the surface (`surface_points`). The outermost ring of a cap is the end of the side,
    and its innermost the centre. -/
def surfacePoints (radius height spacing : α) : Except Fault (List (Vec3 α)) := do
  let top := 0.5 * height
  let around ← Sampling.atLeast 8 (← Sampling.quotient (2 * Scalar.pi * radius) spacing)
  let zs := Sampling.closed (-top) top (← Sampling.count (← Sampling.quotient height spacing))
  let side := (angles around).flatMap fun t =>
    zs.map fun z => (⟨radius * Scalar.cos t, radius * Scalar.sin t, z⟩ : Vec3 α)
  let radii := Sampling.closed 0 radius (← Sampling.count (← Sampling.quotient radius spacing))
  let rings ← ((radii.drop 1).dropLast).mapM (capRing top spacing)
  return side ++ [⟨0, 0, -top⟩, ⟨0, 0, top⟩] ++ rings.flatten

end Clearance.Cylinder
