import Clearance.Field.Build
import Clearance.Input.Value

/-!
# Reading shapes and fields

Shapes, occupancies and distance fields from loosely typed values.

* `Read.box`, `Read.sphere`, `Read.cylinder`, `Read.mesh`: shapes by their parameters.
* `Read.points`: rows of points.
* `Read.field`: a distance field by its values.
-/

namespace Clearance

namespace Read

/-- Rows of three numbers; a single row may stand alone. -/
def points (v : Value) : Except (Error Float) (List (Vec3 Float)) := do
  (← v.toTensor).toPoints

/-! ## Shapes -/

/-- A box by its three extents, in an array of any shape. -/
def box (extents : Value) : Except (Error Float) (Shape Float) := do
  let t ← extents.toTensor
  match Vec3.ofList? t.data.toList with
  | some e => return .box e
  | none => throw (.extentsShape [t.data.size])

/-- A sphere by its radius. -/
def sphere (radius : Value) : Except (Error Float) (Shape Float) := do
  return .sphere (← radius.toGiven.toScalar)

/-- A cylinder by its radius and its height. -/
def cylinder (radius height : Value) : Except (Error Float) (Shape Float) := do
  return .cylinder (← radius.toGiven.toScalar) (← height.toGiven.toScalar)

/-- An integer that has to fit a machine word. -/
def word (n : Int) : Except Fault Int :=
  if -(Nat.pow 2 63 : Int) ≤ n && n < (Nat.pow 2 63 : Int) then .ok n else .error .overflow

/-- The place that an entry of a face stands for; a fraction is cut off, a text is read as an
    integer. -/
def facePlace : Value → Except Fault Int
  | .int n => word n
  | .bool b => .ok (if b then 1 else 0)
  | .real x =>
    if Scalar.isNaN x then .error .value
    else if Scalar.isFinite x then word (if x < 0 then -(Scalar.floor (-x)) else Scalar.floor x)
    else .error .overflow
  | .text s =>
    match Reading.int? s with
    | some n => word n
    | none => .error .value
  | _ => .error .kind

/-- The faces that a row of places after another makes. -/
def faceRows : List Int → List Face
  | a :: b :: c :: rest => ⟨a, b, c⟩ :: faceRows rest
  | _ => []

/-- The pitch of a mesh, which may be missing. -/
def pitch : Value → Except Fault (Option Float)
  | .null => .ok none
  | v => v.toGiven.compare?.map some

/-- A mesh by its vertices, its faces and its pitch. -/
def mesh (vertices faces pitchValue : Value) : Except (Error Float) (Shape Float) := do
  let vs ← vertices.toTensor
  let faceShape ← match faces.shape? with
    | some shape => pure shape
    | none => throw (.fault .value)
  let places ← Fault.lift (faces.leaves.mapM facePlace)
  match vs.shape with
  | [_, 3] => pure ()
  | _ => throw .meshVertices
  match faceShape with
  | [_, 3] => pure ()
  | _ => throw .meshFaces
  let size ← Fault.lift (pitch pitchValue)
  return .mesh (Mesh.make (Tensor.rowPoints vs.data.toList).toArray (faceRows places) size)

/-- The mesh of another shape's triangulation. -/
def meshOf (s : Shape Float) (pitchValue : Value) : Except (Error Float) (Shape Float) := do
  let t ← Fault.lift s.triangulate
  return .mesh (Mesh.ofTriangulation t (← Fault.lift (pitch pitchValue)))

/-! ## Fields -/

/-- A grid with the entries of an array of three axes. -/
def grid {β : Type} (data : Array β) (outside : β) (nx ny nz : Nat) : Grid β :=
  Grid.ofFn nx ny nz fun i j k => data.getD (Grid.place ny nz i j k) outside

/-- Directions at the voxels of a grid of given lengths. -/
def gradients (dims : List Nat) (v : Value) : Except (Error Float) (Tensor Float) := do
  let t ← v.toTensor
  if t.shape ≠ dims ++ [3] then throw (.gradientsShape (dims ++ [3]) t.shape)
  return t

/-- A point by its three coordinates, in an array of any shape. -/
def origin (v : Value) : Except (Error Float) (Vec3 Float) := do
  let t ← v.toTensor
  match Vec3.ofList? t.data.toList with
  | some p => return p
  | none => throw (.fault .value)

/-- A distance field by its distances, its origin, its resolution and perhaps its directions. They
    are looked at in the order distances, resolution, directions, origin. -/
def field (data originValue resolution gradientsValue : Value) : Except (Error Float) (DistanceField Float) := do
  let t ← data.toTensor
  match t.shape with
  | [nx, ny, nz] =>
    DistanceField.checkDims nx ny nz
    let r ← Fault.lift resolution.toGiven.toScalar
    DistanceField.checkResolution r
    let distances := grid t.data 0 nx ny nz
    match gradientsValue with
    | .null => DistanceField.ofData distances (← origin originValue) r
    | v =>
      let g ← gradients t.shape v
      let directions := grid (Tensor.rowPoints g.data.toList).toArray ⟨0, 0, 0⟩ nx ny nz
      DistanceField.ofDataAndGradients distances directions (← origin originValue) r
  | shape => throw (.fieldRank shape.length)

/-! ## Occupancies -/

/-- Whether an entry of an occupancy counts as occupied. -/
def isOccupied : Value → Bool
  | .null => false
  | .bool b => b
  | .int n => n ≠ 0
  | .real x => !(x == 0)
  | .text s => s ≠ ""
  | .list items => !items.isEmpty
  | _ => true

/-- The signed distances of an occupancy of one, two or three axes. -/
def signedDistanceTransform (occupancy resolution : Value) : Except (Error Float) (Tensor Float) := do
  let shape ← match occupancy.shape? with
    | some shape => pure shape
    | none => throw (.fault .value)
  let cells := (occupancy.leaves.map isOccupied).toArray
  let r ← Fault.lift resolution.toGiven.compare?
  let (nx, ny, nz) ← match shape with
    | [n] => pure (n, 1, 1)
    | [n, m] => pure (n, m, 1)
    | [n, m, l] => pure (n, m, l)
    | _ => throw (.fault .value)
  return ⟨shape, (DistanceTransform.signed (grid cells false nx ny nz) r).cells⟩

end Read

end Clearance
