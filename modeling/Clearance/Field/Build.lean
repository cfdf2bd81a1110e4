import Clearance.Field.Basic
import Clearance.Field.DistanceTransform
import Clearance.Field.Layout
import Clearance.Shape.Placed

/-!
# Fields of shapes

The distance field of the union of placed shapes. A plan settles what the field is made of and where
its voxels stand; then the voxels whose centres a shape contains are marked, and their distance
transform is taken.

* `FieldPlan.make`: the checked shapes and poses, and the layout.
* `FieldPlan.occupancy`, `FieldPlan.field`: which voxels are marked, and their field.
* `DistanceField.ofShapes`: the field, and the events of building it.
-/

namespace Clearance

/-- What a field is to be made of. -/
structure FieldPlan (α : Type) where
  shapes : List (PlacedShape α)
  layout : Layout α
  /-- The event of making the grid coarser than asked for. -/
  coarsened : Option (Event α)
  /-- Whether the number of voxels along an axis was cut to a bound that is not an integer. -/
  cutToFraction : Bool

namespace FieldPlan

variable {α : Type} [Scalar α]

/-- One pose for each shape; all at the origin if no poses are given. -/
def alignPoses (count : Nat) (poses : Option (List (PoseSource α))) : Except (Error α) (List (Pose α)) := do
  let sources := poses.getD (List.replicate count .absent)
  if sources.length ≠ count then throw (.posesLength count sources.length)
  sources.mapM PoseSource.toPose

/-- The resolution of a field: finite and positive. -/
def checkedResolution (settings : Settings α) (resolution : Option (Given α)) : Except (Error α) α := do
  let r ← match resolution with
    | none => settings.defaultResolution
    | some given => Fault.lift given.toScalar
  if Scalar.isFinite r && Scalar.lt 0 r then return r else throw (.resolutionInvalid r)

/-- Refuses a shape without volume. -/
def checkVolume (s : Shape α) : Except (Error α) Unit := do
  if ← s.isDegenerate then throw s.degenerate

/-- The bounding box of boxes. -/
def hull : List (Vec3 α × Vec3 α) → Vec3 α × Vec3 α
  | [] => default
  | b :: bs => bs.foldl (fun (lo, hi) c => (lo.min c.1, hi.max c.2)) b

/-- Whether a bound on the number of voxels is written with a fraction. -/
def isFraction : Given α → Bool
  | .real _ => true
  | _ => false

/-- The plan of a field of shapes. The faults of the shapes, their number, the poses, the
    resolution, the volumes and the layout are looked at in this order. -/
def make (settings : Settings α) (shapes : List (ShapeSource α)) (poses : Option (List (PoseSource α)))
    (params : GridParams α) : Except (Error α) (FieldPlan α) := do
  let shapes ← shapes.mapM ShapeSource.validate
  if shapes.isEmpty then throw .noShapes
  let poses ← alignPoses shapes.length poses
  let resolution ← checkedResolution settings params.resolution
  let maxDims := params.maxDims.getD (.int Settings.maxDims)
  shapes.forM checkVolume
  let placed := List.zipWith PlacedShape.mk shapes poses
  let boxes ← Fault.lift (placed.mapM fun p => p.shape.boundsAt p.pose)
  let (lo, hi) := hull boxes
  let (layout, coarsened) ← Layout.ofBounds lo hi (.real resolution) params.padding (some maxDims)
  return ⟨placed, layout, coarsened, coarsened.isSome && isFraction maxDims⟩

/-- Whether some shape contains a point. -/
@[inline] def containsAny (tests : List (Pose α × (Vec3 α → Bool))) (p : Vec3 α) : Bool :=
  tests.any fun (pose, inside) => inside (pose.rowToLocal p)

/-- Which voxels of the grid have their centre in some shape. -/
def occupancy (plan : FieldPlan α) : Except (Error α) (Grid Bool) := do
  let l := plan.layout
  if l.dims.any (· < 2) then throw (.emptyGrid l.resolution)
  let tests ← Fault.lift (plan.shapes.mapM fun p => p.shape.inside.map fun inside => (p.pose, inside))
  if plan.cutToFraction then throw (.fault .kind)
  return Grid.ofFn l.dims.x.toNat l.dims.y.toNat l.dims.z.toNat fun i j k =>
    containsAny tests (DistanceField.center l.origin l.resolution i j k)

/-- The marked voxels, of which there is at least one, with their number. -/
def marked (plan : FieldPlan α) : Except (Error α) (Grid Bool × Nat) := do
  let occupied ← plan.occupancy
  let count := occupied.count id
  if count = 0 then throw (.noneOccupied plan.layout.resolution)
  return (occupied, count)

/-- The field of marked voxels. -/
def field (plan : FieldPlan α) (occupied : Grid Bool) : Except (Error α) (DistanceField α) :=
  DistanceField.ofData (DistanceTransform.signed occupied plan.layout.resolution) plan.layout.origin
    plan.layout.resolution

end FieldPlan

/-- The distance field of the union of placed shapes, and the events of building it
    (`from_shapes`). -/
def DistanceField.ofShapes {α : Type} [Scalar α] (settings : Settings α) (shapes : List (ShapeSource α))
    (poses : Option (List (PoseSource α))) (params : GridParams α) :
    Except (Error α) (DistanceField α) × List (Event α) :=
  match FieldPlan.make settings shapes poses params with
  | .error e => (.error e, [])
  | .ok plan =>
    match plan.marked with
    | .error e => (.error e, plan.coarsened.toList)
    | .ok (occupied, count) =>
      (plan.field occupied,
        plan.coarsened.toList ++ [.fieldBuilt plan.layout.dims plan.layout.resolution count])

end Clearance
