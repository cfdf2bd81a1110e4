import Clearance.Field.Basic
import Clearance.Geometry.Pose
import Clearance.Input.LooseMotion
import Clearance.Number.Shortest
import Clearance.Text.Quoted

/-!
# Written values

How parameters, arrays, poses and fields are shown in messages and descriptions. Numbers are written
by the shortest decimal that reads back; coordinates in descriptions are rounded to six places
first.

* `Given.written`: a parameter as a caller wrote it.
* `Tensor.written`: an array as nested lists.
* `Pose.written`, `LooseMotion.written`, `DistanceField.written`: one-line descriptions.
-/

namespace Clearance

namespace Text

/-- Lengths along axes. -/
def lengths (shape : List Nat) : String := tuple (shape.map toString)

/-- Whole numbers between brackets. -/
def integers (xs : List Int) : String := bracketed (xs.map toString)

end Text

/-- A parameter as a caller wrote it. -/
def Given.written : Given Float → String
  | .int n => toString n
  | .real x => Decimal.text x
  | .bool b => Text.truth b
  | .text s _ => s
  | .other => "None"

/-- The coordinates of a vector between brackets. -/
def Vec3.written (v : Vec3 Float) : String := Text.bracketed (v.toList.map Decimal.text)

/-- The entries of an array with given lengths that start at a place, as nested lists. -/
def Tensor.writtenFrom (data : Array Float) : List Nat → Nat → String
  | [], start => Decimal.text (data.getD start 0)
  | n :: rest, start =>
    Text.bracketed ((List.range n).map fun i => writtenFrom data rest (start + i * Tensor.volume rest))

/-- An array as nested lists. -/
def Tensor.written (t : Tensor Float) : String := Tensor.writtenFrom t.data t.shape 0

/-- How many places descriptions show. -/
def descriptionPlaces : Nat := 6

/-- A vector with its coordinates rounded for a description. -/
def Vec3.described (v : Vec3 Float) : String := (v.map (Scalar.roundScaled descriptionPlaces)).written

/-- The description of a pose. -/
def Pose.written (p : Pose Float) : String :=
  "#<Coordinates " ++ p.name ++ " pos=" ++ p.position.described ++ " rot=" ++
    Text.bracketed (p.rotation.toList.map Vec3.described) ++ ">"

/-- The description of a motion in arrays of any shape. -/
def LooseMotion.written (m : LooseMotion Float) : String :=
  "Transform(translation=" ++ m.shift.written ++ ", rotation=" ++ m.rotation.written ++ ")"

/-- The description of a field. -/
def DistanceField.written (f : DistanceField Float) : String :=
  "<DistanceField dims=" ++ Text.bracketed (f.dims.toList.map toString) ++ " resolution=" ++
    Decimal.text f.resolution ++ " origin=" ++ f.origin.described ++ ">"

end Clearance
