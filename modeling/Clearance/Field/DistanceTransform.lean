import Clearance.Field.Grid
import Clearance.Scalar

/-!
# The distance transform

For every voxel of a box the exact distance to the nearest voxel of a set, the background, measured
between centres in units of voxels. Squares of distances are whole numbers, and the square of a
distance is a sum over the axes, so the nearest background is found one axis after the other.

* `DistanceTransform.relax`: along one line, the least of a value elsewhere plus the square of the
  way there.
* `DistanceTransform.squared`: the squares of the distances to the background.
* `DistanceTransform.signed`: positive distances outside of a body and negative ones inside, shifted
  so that the surface lies half way between neighbouring centres.
-/

namespace Clearance.DistanceTransform

/-! ## One line -/

/-- Looks at the places at distance `d`, `d + 1`, … on both sides of `i`, as long as the square of
    the way is less than the best value so far. -/
@[specialize] def search (n : Nat) (f : Nat → Nat) (i : Nat) : Nat → Nat → Nat → Nat
  | 0, _, best => best
  | steps + 1, d, best =>
    if best ≤ d * d then best
    else
      let left := if d ≤ i && i - d < n then Nat.min best (f (i - d) + d * d) else best
      let both := if i + d < n then Nat.min left (f (i + d) + d * d) else left
      search n f i steps (d + 1) both

/-- The least of `f j + (i - j) ^ 2` over the places `j` of a line of length `n`, or `far` if all
    are greater. -/
@[inline] def relax (far n : Nat) (f : Nat → Nat) (i : Nat) : Nat := search n f i n 0 far

/-! ## Three axes -/

/-- A number above the square of every distance in a box. -/
def farther (nx ny nz : Nat) : Nat := nx * nx + ny * ny + nz * nz

/-- The squares of the distances to the nearest cell that is background, along the third, the second
    and the first axis in turn; `farther` where there is none. -/
def squared (background : Grid Bool) : Grid Nat :=
  let nx := background.nx
  let ny := background.ny
  let nz := background.nz
  let far := farther nx ny nz
  let start := background.map fun b => if b then 0 else far
  let lines := Grid.ofFn nx ny nz fun i j k => relax far nz (fun k' => start.getD i j k' far) k
  let planes := Grid.ofFn nx ny nz fun i j k => relax far ny (fun j' => lines.getD i j' k far) j
  Grid.ofFn nx ny nz fun i j k => relax far nx (fun i' => planes.getD i' j k far) i

/-- The squares of the distances to the nearest background. A box without background is measured as
    if the voxel before its first one along the first axis were background. -/
def squaredFrom (background : Grid Bool) : Grid Nat :=
  if background.cells.any id then squared background
  else Grid.ofFn background.nx background.ny background.nz fun i j k => (i + 1) * (i + 1) + j * j + k * k

variable {α : Type} [Scalar α]

/-- The signed distance of a voxel of a body, or of free space, from the square of its distance to
    the other of the two. -/
@[inline] def signedValue (resolution : α) (occupied : Bool) (inside outside : Nat) : α :=
  let d : α :=
    if occupied then 0.5 - Scalar.sqrt (Scalar.ofInt (inside : Int))
    else Scalar.sqrt (Scalar.ofInt (outside : Int)) - 0.5
  d * resolution

/-- Signed distances: free voxels get the distance to the nearest occupied one, occupied voxels the
    negative distance to the nearest free one, both less half a voxel
    (`signed_distance_transform`). -/
def signed (occupancy : Grid Bool) (resolution : α) : Grid α :=
  let inside := squaredFrom (occupancy.map (!·))
  let outside := squaredFrom occupancy
  Grid.ofFn occupancy.nx occupancy.ny occupancy.nz fun i j k =>
    signedValue resolution (occupancy.getD i j k false) (inside.getD i j k 0) (outside.getD i j k 0)

end Clearance.DistanceTransform
