import Clearance.Error
import Clearance.Event
import Clearance.Geometry.Vec3
import Clearance.Settings

/-!
# Layout of a grid

Where the voxels of a distance field stand. The grid covers a bounding box and a free margin around
it; the faces of the box fall half way between voxel centres. A grid with too many voxels along an
axis is made coarser.

* `Layout.ofBounds`: the origin, the resolution and the number of voxels along each axis.
-/

namespace Clearance

/-- The centre of the first voxel, the size of voxels, and their number along each axis. -/
structure Layout (α : Type) where
  origin : Vec3 α
  resolution : α
  dims : Vec3 Int
  deriving Repr, DecidableEq

/-- The parameters of a grid as a caller gave them; those that are missing have defaults. -/
structure GridParams (α : Type) where
  resolution : Option (Given α)
  padding : Option (Given α)
  maxDims : Option (Given α)
  deriving Repr, DecidableEq

namespace Layout

variable {α : Type} [Scalar α]

/-- A length that exceeds a whole number of voxels by less than this share of one is not rounded
    up. -/
def roundingSlack : α := 1e-9

/-- By how much a coarser resolution exceeds what the number of voxels demands. -/
def coarseningFactor : α := 1 + 1e-6

/-- How many voxels a length needs, with one more on each side (`_n_voxels`). -/
def voxelCount (resolution length : α) : Int := Scalar.ceilCount (length / resolution - roundingSlack) + 2

/-- The number of voxels along each axis of a box with a margin. -/
def voxelCounts (span : Vec3 α) (margin resolution : α) : Vec3 Int :=
  span.map fun length => voxelCount resolution (length + 2 * margin)

/-- A bound on the number of voxels, compared with a number of them. -/
def exceeds (bound : α) (n : Int) : Bool := Scalar.lt bound (Scalar.ofInt n)

/-- The smaller of a number of voxels and their greatest number. -/
def capped (bound : α) (n : Int) : Int := if exceeds bound n then Scalar.floor bound else n

/-- The margin around the box: so much, or so many voxels. -/
inductive Margin (α : Type) where
  | length (pad : α)
  | voxels (n : Nat)
  deriving Repr, DecidableEq

/-- The margin at a resolution. -/
def Margin.at (resolution : α) : Margin α → α
  | .length pad => pad
  | .voxels n => Scalar.ofInt (n : Int) * resolution

/-- The margin that a padding asks for. -/
def Margin.ofPadding (padding : Option (Given α)) : Except (Error α) (Margin α) := do
  match padding with
  | none => return .voxels Settings.paddingVoxels
  | some given =>
    let pad ← given.toScalar
    if Scalar.lt pad 0 then throw (.paddingNegative given)
    return .length pad

/-- The resolution at which a box with its margin has a given greatest number of voxels. -/
def coarseResolution (span : Vec3 α) (margin : Margin α) (given : Given α) (bound : α) : Except (Error α) α :=
  match margin with
  | .length pad =>
    .ok ((span.map (· + 2 * pad)).maxCoord / (bound - 2) * coarseningFactor)
  | .voxels n =>
    let free := bound - 2 - 2 * Scalar.ofInt (n : Int)
    if Scalar.le free 0 then .error (.maxDimsTooSmall given) else .ok (span.maxCoord / free * coarseningFactor)

/-- The layout at a resolution: the margin and half a voxel lie before the box. -/
def place (lo : Vec3 α) (margin : Margin α) (resolution : α) (dims : Vec3 Int) : Layout α :=
  let pad := margin.at resolution
  ⟨lo.map fun x => x - pad - 0.5 * resolution, resolution, dims⟩

/-- The layout of a grid around a box, and the event of making it coarser (`_grid_layout`). -/
def ofBounds (lo hi : Vec3 α) (resolution : Given α) (padding maxDims : Option (Given α)) :
    Except (Error α) (Layout α × Option (Event α)) := do
  let fine ← resolution.compare?
  let span := hi - lo
  let margin ← Margin.ofPadding padding
  let dims := voxelCounts span (margin.at fine) fine
  match maxDims with
  | none => return (place lo margin fine dims, none)
  | some given =>
    let bound ← given.compare?
    if !(dims.any (exceeds bound)) then return (place lo margin fine dims, none)
    let coarse ← coarseResolution span margin given bound
    let dims' := (voxelCounts span (margin.at coarse) coarse).map (capped bound)
    return (place lo margin coarse dims', some (.coarsened dims given resolution coarse))

end Layout

end Clearance
