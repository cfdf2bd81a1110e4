import Clearance.Mesh.Subdivision

/-!
# Filled voxels of a mesh

The inside of a closed mesh, told by voxels. The voxels that the surface meets are marked, and so is
every voxel that cannot be reached from outside through shared sides.

* `VoxelSolid.ofMesh`: the marked voxels.
* `VoxelSolid.contains`: whether the voxel of a point is marked.
-/

namespace Clearance

/-- Three whole numbers: the place of a voxel. -/
structure VoxelIndex where
  i : Int
  j : Int
  k : Int
  deriving Repr, DecidableEq

/-- A box of voxels, some of them marked. -/
structure VoxelSolid (α : Type) where
  pitch : α
  least : VoxelIndex
  nx : Nat
  ny : Nat
  nz : Nat
  marked : Array Bool

namespace VoxelSolid

/-! ## Reaching voxels from outside -/

/-- The neighbours of a voxel of the box that share a side with it, by their places. -/
def neighbours (nx ny nz place : Nat) : List Nat :=
  let k := place % nz
  let j := place / nz % ny
  let i := place / (ny * nz)
  (if 0 < i then [place - ny * nz] else []) ++ (if i + 1 < nx then [place + ny * nz] else []) ++
    (if 0 < j then [place - nz] else []) ++ (if j + 1 < ny then [place + nz] else []) ++
    (if 0 < k then [place - 1] else []) ++ (if k + 1 < nz then [place + 1] else [])

/-- Whether a voxel lies on the boundary of the box. -/
def onBoundary (nx ny nz place : Nat) : Bool :=
  let k := place % nz
  let j := place / nz % ny
  let i := place / (ny * nz)
  i == 0 || i + 1 == nx || j == 0 || j + 1 == ny || k == 0 || k + 1 == nz

/-- Marks what is reached from the waiting voxels through voxels that are not blocked. Each voxel is
    reached once and lets at most six others wait, which bounds the steps. -/
def reach (nx ny nz : Nat) (blocked : Array Bool) : Nat → List Nat → Array Bool → Array Bool
  | 0, _, reached => reached
  | _, [], reached => reached
  | steps + 1, place :: waiting, reached =>
    if blocked.getD place true || reached.getD place true then reach nx ny nz blocked steps waiting reached
    else reach nx ny nz blocked steps (neighbours nx ny nz place ++ waiting) (reached.setIfInBounds place true)

/-- The voxels of a box that are marked or cannot be reached from outside. -/
def fill (nx ny nz : Nat) (marked : Array Bool) : Array Bool :=
  let count := nx * ny * nz
  let start := (List.range count).filter (onBoundary nx ny nz)
  let reached := reach nx ny nz marked (8 * count) start (Array.replicate count false)
  reached.map (!·)

variable {α : Type} [Scalar α]

/-! ## Voxels of points -/

/-- The voxel whose centre is nearest to a point. -/
def indexOf (pitch : α) (p : Vec3 α) : VoxelIndex :=
  let nearest (x : α) : Int := Scalar.floor (Scalar.rint (x / pitch))
  ⟨nearest p.x, nearest p.y, nearest p.z⟩

/-- The least and the greatest voxel of the bounding box of voxels. -/
def extent : List VoxelIndex → Option (VoxelIndex × VoxelIndex)
  | [] => none
  | v :: vs => some (vs.foldl (fun (lo, hi) w =>
      (⟨min lo.i w.i, min lo.j w.j, min lo.k w.k⟩, ⟨max hi.i w.i, max hi.j w.j, max hi.k w.k⟩)) (v, v))

/-- Marks the voxels of points in the box around them. -/
def mark (least : VoxelIndex) (nx ny nz : Nat) (vs : List VoxelIndex) : Array Bool :=
  vs.foldl (fun marked v =>
    let place := ((v.i - least.i).toNat * ny + (v.j - least.j).toNat) * nz + (v.k - least.k).toNat
    marked.setIfInBounds place true) (Array.replicate (nx * ny * nz) false)

/-- The filled voxels of a mesh (`_filled_voxels`). The surface is sampled at half the size of the
    voxels, as far as ten rounds of subdivision go. -/
def ofMesh (m : Mesh α) : Except Fault (VoxelSolid α) := do
  let t ← m.resolve
  let pitch := m.pitch.getD 0
  let indices := (t.refine (pitch / 2) 10).points.toList.map (indexOf pitch)
  match extent indices with
  | none => throw .value
  | some (lo, hi) =>
    let nx := (hi.i - lo.i + 1).toNat
    let ny := (hi.j - lo.j + 1).toNat
    let nz := (hi.k - lo.k + 1).toNat
    return ⟨pitch, lo, nx, ny, nz, fill nx ny nz (mark lo nx ny nz indices)⟩

/-- Whether the voxel of a point is marked; a point without finite coordinates has none. -/
def contains (s : VoxelSolid α) (p : Vec3 α) : Bool :=
  let offset : Vec3 α :=
    ⟨Scalar.ofInt s.least.i * s.pitch, Scalar.ofInt s.least.j * s.pitch, Scalar.ofInt s.least.k * s.pitch⟩
  let v := indexOf s.pitch (p - offset)
  p.isFinite && 0 ≤ v.i && v.i < s.nx && 0 ≤ v.j && v.j < s.ny && 0 ≤ v.k && v.k < s.nz &&
    s.marked.getD ((v.i.toNat * s.ny + v.j.toNat) * s.nz + v.k.toNat) false

end VoxelSolid

end Clearance
