import Clearance.Mesh.Basic

/-!
# Meshes of simple shapes

* `Primitive.box`: the eight corners of a box and two triangles for each face.
* `Primitive.cylinder`: a prism over a regular polygon inscribed in the circle.
* `Primitive.sphere`: an icosahedron, each triangle split in four and the points pushed to the
  sphere, three times.
-/

namespace Clearance.Primitive

variable {α : Type} [Scalar α]

/-- The faces of a mesh as triangles. -/
def triangles (fs : List (Nat × Nat × Nat)) : List Triangle := fs.map fun (a, b, c) => ⟨a, b, c⟩

/-! ## Boxes -/

/-- The two triangles of each face of a box, whose corners are counted with the third axis running
    fastest. -/
def boxTriangles : List Triangle :=
  triangles [(1, 3, 0), (4, 1, 0), (0, 3, 2), (2, 4, 0), (1, 7, 3), (5, 1, 4), (5, 7, 1), (3, 7, 2), (6, 4, 2),
    (2, 7, 6), (6, 5, 4), (7, 5, 6)]

/-- The corners of the box between two points, the third axis running fastest. -/
def corners (lo hi : Vec3 α) : List (Vec3 α) :=
  [lo.x, hi.x].flatMap fun x => [lo.y, hi.y].flatMap fun y => [lo.z, hi.z].map fun z => ⟨x, y, z⟩

/-- The box of given extents around the origin. -/
def box (extents : Vec3 α) : Triangulation α :=
  let half : Vec3 α := ⟨extents.x * 0.5, extents.y * 0.5, extents.z * 0.5⟩
  ⟨(corners (-half) half).toArray, boxTriangles⟩

/-! ## Cylinders -/

/-- The number of corners of the polygon that stands for a circle. -/
def sections : Nat := 32

/-- The prism of a radius and a height around the origin: two centres, the lower and the upper
    ring. -/
def cylinder (radius height : α) : Triangulation α :=
  let r := Scalar.abs radius
  let top := Scalar.abs height * 0.5
  let ring (z : α) : List (Vec3 α) := (List.range sections).map fun (i : Nat) =>
    let angle := 2 * Scalar.pi * Scalar.ofInt (i : Int) / Scalar.ofInt (sections : Int)
    ⟨r * Scalar.cos angle, r * Scalar.sin angle, z⟩
  let points := [⟨0, 0, -top⟩, ⟨0, 0, top⟩] ++ ring (-top) ++ ring top
  let faces := (List.range sections).flatMap fun i =>
    let next := (i + 1) % sections
    let low := 2 + i
    let low' := 2 + next
    let high := 2 + sections + i
    let high' := 2 + sections + next
    [(0, low', low), (1, high, high'), (low, low', high'), (low, high', high)]
  ⟨points.toArray, triangles faces⟩

/-! ## Spheres -/

/-- The coordinates of the corners of an icosahedron with corners at distance one. -/
def icosahedronCoords : α × α := (0.5257311121191336, 0.85065080835204)

/-- The twelve corners of the icosahedron. -/
def icosahedronPoints : List (Vec3 α) :=
  let (s, l) : α × α := icosahedronCoords
  [⟨-s, l, 0⟩, ⟨s, l, 0⟩, ⟨-s, -l, 0⟩, ⟨s, -l, 0⟩, ⟨0, -s, l⟩, ⟨0, s, l⟩, ⟨0, -s, -l⟩, ⟨0, s, -l⟩,
   ⟨l, 0, -s⟩, ⟨l, 0, s⟩, ⟨-l, 0, -s⟩, ⟨-l, 0, s⟩]

/-- The twenty faces of the icosahedron. -/
def icosahedronTriangles : List Triangle :=
  triangles [(0, 11, 5), (0, 5, 1), (0, 1, 7), (0, 7, 10), (0, 10, 11), (1, 5, 9), (5, 11, 4), (11, 10, 2),
    (10, 7, 6), (7, 1, 8), (3, 9, 4), (3, 4, 2), (3, 2, 6), (3, 6, 8), (3, 8, 9), (4, 9, 5), (2, 4, 11),
    (6, 2, 10), (8, 6, 7), (9, 8, 1)]

/-- Each triangle split in four at the middles of its edges. -/
def splitAll (t : Triangulation α) : Triangulation α :=
  let edges := (t.triangles.flatMap fun f => [edgeKey f.a f.b, edgeKey f.b f.c, edgeKey f.c f.a]).eraseDups
  let place (i j : Nat) : Nat := t.points.size + edges.idxOf (edgeKey i j)
  let middles := edges.map fun (i, j) => (t.point i + t.point j).divide 2
  ⟨t.points ++ middles.toArray, t.triangles.flatMap fun f =>
    let p := place f.a f.b
    let q := place f.b f.c
    let r := place f.c f.a
    [⟨f.a, p, r⟩, ⟨p, f.b, q⟩, ⟨r, q, f.c⟩, ⟨p, q, r⟩]⟩

/-- A point moved along its direction to a distance from the origin. -/
def pushTo (radius : α) (p : Vec3 α) : Vec3 α :=
  let n := p.norm
  p + (p.divide n).scale (radius - n)

/-- The sphere of a radius around the origin. -/
def sphere (radius : α) : Triangulation α :=
  let step (t : Triangulation α) : Triangulation α :=
    let s := splitAll t
    ⟨s.points.map (pushTo radius), s.triangles⟩
  step (step (step ⟨icosahedronPoints.toArray, icosahedronTriangles⟩))

end Clearance.Primitive

namespace Clearance.Mesh

variable {α : Type} [Scalar α]

/-- The mesh of a triangulation. -/
def ofTriangulation (t : Triangulation α) (pitch : Option α) : Mesh α :=
  make t.points (t.triangles.map fun f => ⟨f.a, f.b, f.c⟩) pitch

end Clearance.Mesh
