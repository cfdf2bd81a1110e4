import Clearance.Shape.Sampling

/-!
# Spheres

A sphere is given by its radius and stands around the origin.

* `Sphere.signedDistance`, `Sphere.closestPoint`: where a point is with respect to the surface.
* `Sphere.surfacePoints`: a spiral of points, each with the same share of the area.
-/

namespace Clearance.Sphere

variable {α : Type} [Scalar α]

/-- The distance of a point to the surface, negative inside (`signed_distance`). -/
def signedDistance (radius : α) (p : Vec3 α) : α := p.norm - radius

/-- Points nearer to the centre than this have no direction of their own. -/
def directionTolerance : α := 1e-12

/-- The nearest point of the surface; the centre goes to the first axis (`closest_point`). -/
def closestPoint (radius : α) (p : Vec3 α) : Vec3 α :=
  let n := p.norm
  let direction := if Scalar.lt directionTolerance n then p.divide n else ⟨1, 0, 0⟩
  ⟨direction.x * radius, direction.y * radius, direction.z * radius⟩

/-- The corners of the bounding box. -/
def bounds (radius : α) : Vec3 α × Vec3 α := (Vec3.replicate (-radius), Vec3.replicate radius)

/-- The volume, zero if the radius is not positive. -/
def volume (radius : α) : Except Fault α :=
  if Scalar.le radius 0 then .ok 0 else (Sampling.cube radius).map (4 / 3 * Scalar.pi * ·)

/-- The point of the spiral at a place: its height falls evenly, its angle grows by the golden
    section. -/
def spiralPoint (radius : α) (n i : Nat) : Vec3 α :=
  let index := Scalar.ofInt (i : Int) + (0.5 : α)
  let phi := Scalar.acos (1 - 2 * index / Scalar.ofInt (n : Int))
  let theta := Scalar.pi * (1 + Scalar.sqrt 5) * index
  ⟨radius * (Scalar.cos theta * Scalar.sin phi), radius * (Scalar.sin theta * Scalar.sin phi),
   radius * Scalar.cos phi⟩

/-- Samples of the surface, at least eight, one for each square of the spacing
    (`surface_points`). -/
def surfacePoints (radius spacing : α) : Except Fault (List (Vec3 α)) := do
  let area := 4 * Scalar.pi * (← Sampling.square radius)
  let n ← Sampling.atLeast 8 (← Sampling.quotient area (← Sampling.square spacing))
  return (List.range n).map (spiralPoint radius n)

end Clearance.Sphere
