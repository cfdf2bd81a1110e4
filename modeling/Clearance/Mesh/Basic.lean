import Clearance.Error
import Clearance.Geometry.Vec3
import Clearance.Text.MessageDigest

/-!
# Triangle meshes

A mesh is a list of vertices and a list of faces, each of which names three vertices. A face may
name vertices that do not exist; what needs their places fails then.

* `Mesh.resolve`: the mesh with the places of its faces looked up.
* `Mesh.signedVolume`: the volume enclosed, positive if the faces are seen counterclockwise from
  outside.
* `Mesh.content`: the bytes that identify vertices and faces.
-/

namespace Clearance

/-- Three vertices by their places; a negative place counts from the end. -/
structure Face where
  a : Int
  b : Int
  c : Int
  deriving Repr, DecidableEq

/-- A triangle mesh, with the size of the voxels by which its inside is told (`Mesh`). -/
structure Mesh (α : Type) where
  vertices : Array (Vec3 α)
  faces : List Face
  pitch : Option α

/-- Three vertices by their places from the start. -/
structure Triangle where
  a : Nat
  b : Nat
  c : Nat
  deriving Repr, DecidableEq

/-- The undirected edge between two places. -/
def edgeKey (i j : Nat) : Nat × Nat := if i ≤ j then (i, j) else (j, i)

/-- A mesh whose triangles name existing points. -/
structure Triangulation (α : Type) where
  points : Array (Vec3 α)
  triangles : List Triangle

namespace Mesh

variable {α : Type}

/-- The place of a vertex counted from the start. -/
def place (count : Nat) (i : Int) : Except Fault Nat :=
  if 0 ≤ i && i < count then .ok i.toNat
  else if i < 0 && -(count : Int) ≤ i then .ok (i + count).toNat
  else .error .index

/-- A face with its vertices counted from the start. -/
def resolveFace (count : Nat) (f : Face) : Except Fault Triangle := do
  return ⟨← place count f.a, ← place count f.b, ← place count f.c⟩

/-- The mesh with the places of its faces looked up. -/
def resolve (m : Mesh α) : Except Fault (Triangulation α) :=
  (m.faces.mapM (resolveFace m.vertices.size)).map fun ts => ⟨m.vertices, ts⟩

variable [Scalar α]

/-- Without a pitch of its own, a mesh is told apart by voxels this many to the longest side of its
    bounding box. -/
def voxelsPerSide : α := 64

/-- The mesh of given vertices, faces and pitch. A missing pitch is filled in if there are
    vertices. -/
def make (vertices : Array (Vec3 α)) (faces : List Face) (pitch : Option α) : Mesh α :=
  let filled := pitch.or do
    let lo ← Vec3.minimum vertices.toList
    let hi ← Vec3.maximum vertices.toList
    return (hi - lo).maxCoord / voxelsPerSide
  ⟨vertices, faces, filled⟩

/-- The corners of the bounding box of all vertices. -/
def bounds (m : Mesh α) : Except Fault (Vec3 α × Vec3 α) :=
  match Vec3.minimum m.vertices.toList, Vec3.maximum m.vertices.toList with
  | some lo, some hi => .ok (lo, hi)
  | _, _ => .error .value

/-- The bytes that identify a mesh: its coordinates, then its faces. -/
def content (m : Mesh α) : List UInt8 :=
  (m.vertices.toList.flatMap fun v => v.toList.flatMap fun x => MessageDigest.wordBytes (Scalar.bits x)) ++
    m.faces.flatMap fun f => [f.a, f.b, f.c].flatMap MessageDigest.integerBytes

end Mesh

namespace Triangulation

variable {α : Type} [Scalar α]

/-- The point at a place. -/
@[inline] def point (t : Triangulation α) (i : Nat) : Vec3 α := t.points.getD i default

/-- The points that the triangles use. -/
def usedPoints (t : Triangulation α) : List (Vec3 α) :=
  t.triangles.flatMap fun f => [t.point f.a, t.point f.b, t.point f.c]

/-- The least and greatest corners of the points that the triangles use, if there are any. -/
def corners? (t : Triangulation α) : Option (Vec3 α × Vec3 α) := do
  return (← Vec3.minimum t.usedPoints, ← Vec3.maximum t.usedPoints)

/-- Six times the volume between a triangle and the plane through the origin across the first
    axis. -/
def sixfoldVolume (t : Triangulation α) (f : Triangle) : α :=
  let a := t.point f.a
  let b := t.point f.b
  let c := t.point f.c
  ((b - a).cross (c - a)).x * (a.x + b.x + c.x)

/-- The volume enclosed by the triangles, negative if they are seen from inside. -/
def signedVolume (t : Triangulation α) : α := Scalar.sum (t.triangles.map t.sixfoldVolume) / 6

end Triangulation

namespace Mesh

variable {α : Type} [Scalar α]

/-- The volume enclosed by the faces, whichever side they are seen from. -/
def volume (m : Mesh α) : Except Fault α :=
  if m.faces.isEmpty then .ok 0 else m.resolve.map fun t => Scalar.abs t.signedVolume

end Mesh

end Clearance
