import Std.Data.HashMap
import Clearance.Mesh.Basic

/-!
# Subdivision of meshes

Triangles are split until no edge is longer than a bound. In a round, every edge that is too long
gets a point at its middle, which the triangles on both its sides share, and every triangle is split
according to how many of its edges have one.

* `Triangle.split`: the parts of a triangle.
* `Triangulation.refine`: a bounded number of rounds.
-/

namespace Clearance

open Std (HashMap)

namespace Triangulation

variable {α : Type} [Scalar α]

/-- The distance of two points by their places. -/
def edgeLength (t : Triangulation α) (i j : Nat) : α := (t.point j - t.point i).norm

/-- The edges of the triangles that are longer than a bound, in the order in which they are met. -/
def longEdges (t : Triangulation α) (bound : α) : List (Nat × Nat) :=
  t.triangles.flatMap fun f =>
    [(f.a, f.b), (f.b, f.c), (f.c, f.a)].filterMap fun (i, j) =>
      if Scalar.lt bound (t.edgeLength i j) then some (edgeKey i j) else none

/-- The middle of two points by their places. -/
def middle (t : Triangulation α) (i j : Nat) : Vec3 α := (t.point i + t.point j).divide 2

/-- Points with the places of those among them that are middles of edges. -/
structure Middles (α : Type) where
  points : Array (Vec3 α)
  places : HashMap (Nat × Nat) Nat

/-- Adds the middle of an edge unless it is there already. -/
def addMiddle (t : Triangulation α) (m : Middles α) (edge : Nat × Nat) : Middles α :=
  if m.places.contains edge then m
  else ⟨m.points.push (t.middle edge.1 edge.2), m.places.insert edge m.points.size⟩

end Triangulation

namespace Triangle

variable {α : Type} [Scalar α]

/-- The parts of the triangle `a`, `b`, `c` with points `p` on `ab` and `q` on `bc`: the corner at
    `b`, and the rest cut along its shorter diagonal. -/
def cutCorner (point : Nat → Vec3 α) (a b c p q : Nat) : List Triangle :=
  let aq := point q - point a
  let pc := point c - point p
  ⟨p, b, q⟩ :: (if Scalar.le (aq.dot aq) (pc.dot pc) then [⟨a, p, q⟩, ⟨a, q, c⟩] else [⟨a, p, c⟩, ⟨p, q, c⟩])

/-- The parts of a triangle, given the middles of those of its edges that have one. -/
def split (point : Nat → Vec3 α) (middleOf : Nat → Nat → Option Nat) (f : Triangle) : List Triangle :=
  match middleOf f.a f.b, middleOf f.b f.c, middleOf f.c f.a with
  | none, none, none => [f]
  | some p, some q, some r => [⟨f.a, p, r⟩, ⟨p, f.b, q⟩, ⟨r, q, f.c⟩, ⟨p, q, r⟩]
  | some p, none, none => [⟨f.a, p, f.c⟩, ⟨p, f.b, f.c⟩]
  | none, some q, none => [⟨f.b, q, f.a⟩, ⟨q, f.c, f.a⟩]
  | none, none, some r => [⟨f.c, r, f.b⟩, ⟨r, f.a, f.b⟩]
  | some p, some q, none => cutCorner point f.a f.b f.c p q
  | none, some q, some r => cutCorner point f.b f.c f.a q r
  | some p, none, some r => cutCorner point f.c f.a f.b r p

end Triangle

namespace Triangulation

variable {α : Type} [Scalar α]

/-- One round; absent if no edge is too long. -/
def refineOnce? (t : Triangulation α) (bound : α) : Option (Triangulation α) :=
  match t.longEdges bound with
  | [] => none
  | edges =>
    let m := edges.foldl t.addMiddle ⟨t.points, ∅⟩
    let middleOf (i j : Nat) : Option Nat := m.places[edgeKey i j]?
    let point (i : Nat) : Vec3 α := m.points.getD i default
    some ⟨m.points, t.triangles.flatMap (Triangle.split point middleOf)⟩

/-- At most `rounds` rounds. -/
def refine (bound : α) : Nat → Triangulation α → Triangulation α
  | 0, t => t
  | rounds + 1, t =>
    match t.refineOnce? bound with
    | none => t
    | some t' => refine bound rounds t'

end Triangulation

namespace Mesh

variable {α : Type} [Scalar α]

/-- Samples of the surface: the points of the mesh after subdivision to edges of the spacing. -/
def surfacePoints (m : Mesh α) (spacing : α) : Except Fault (List (Vec3 α)) :=
  m.resolve.map fun t => (t.refine spacing 20).points.toList

end Mesh

end Clearance
