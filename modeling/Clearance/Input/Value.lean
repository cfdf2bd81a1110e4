import Clearance.Error
import Clearance.Input.Tensor
import Clearance.Geometry.Mat3
import Clearance.Number.Float
import Clearance.Number.Reading

/-!
# Loosely typed values

Vectors, matrices and lists of points come as nested lists of whatever a caller wrote. This module
reads them.

* `Value.toTensor`: the array of numbers that a value stands for; lists of unequal shape are
  refused.
* `Value.isNumeric`: whether the entries of a value are numbers, at least one of them more than a
  truth value.
* `Value.toGiven`: a parameter that should be one number.
* `Tensor.toPoints`: the rows of an array as points.
-/

namespace Clearance

/-- A value as a caller wrote it. -/
inductive Value where
  | null
  | bool (b : Bool)
  | int (n : Int)
  | real (x : Float)
  | text (s : String)
  | list (items : List Value)
  /-- An array of numbers that is already one. -/
  | tensor (t : Tensor Float)
  /-- Something that is no part of any array. -/
  | other

instance : Inhabited Value := ⟨.null⟩

namespace Value

/-! ## Shape and entries -/

mutual

/-- The lengths along the axes of the array that a value stands for; absent if lists of unequal
    shape stand side by side. -/
def shape? : Value → Option (List Nat)
  | .list items => itemsShape? items
  | .tensor t => some t.shape
  | _ => some []

/-- The lengths along the axes of the array made of values of one shape. -/
def itemsShape? : List Value → Option (List Nat)
  | [] => some [0]
  | [v] => (shape? v).map (1 :: ·)
  | v :: rest =>
    match shape? v, itemsShape? rest with
    | some s, some (n :: s') => if s = s' then some ((n + 1) :: s) else none
    | _, _ => none

end

mutual

/-- The entries of the array that a value stands for. -/
def leaves : Value → List Value
  | .list items => itemsLeaves items
  | .tensor t => t.data.toList.map .real
  | v => [v]

/-- The entries of the array made of values. -/
def itemsLeaves : List Value → List Value
  | [] => []
  | v :: rest => leaves v ++ itemsLeaves rest

end

/-! ## Numbers -/

/-- A parameter that should be one number. -/
def toGiven : Value → Given Float
  | .bool b => .bool b
  | .int n => .int n
  | .real x => .real x
  | .text s => .text s (Reading.float? s)
  | .tensor ⟨[], data⟩ => .real (data.getD 0 0)
  | _ => .other

/-- The number that an entry of an array stands for. An empty place is not a number; a text is
    read. -/
def leafNumber : Value → Except Fault Float
  | .null => .ok (0.0 / 0.0)
  | v => v.toGiven.toScalar

/-- The array of numbers that a value stands for. -/
def toTensor (v : Value) : Except Fault (Tensor Float) :=
  match v with
  | .tensor t => .ok t
  | v =>
    match v.shape? with
    | none => .error .value
    | some shape => (v.leaves.mapM leafNumber).map fun data => ⟨shape, data.toArray⟩

/-- Whether an entry fits a machine word, with or without a sign. -/
def fitsWord (n : Int) : Bool := -(Nat.pow 2 63 : Int) ≤ n && n < (Nat.pow 2 64 : Int)

/-- Whether an entry is a number or a truth value. -/
def isNumberOrBool : Value → Bool
  | .int n => fitsWord n
  | .real _ | .bool _ => true
  | _ => false

/-- Whether an entry is a number. -/
def isNumber : Value → Bool
  | .int n => fitsWord n
  | .real _ => true
  | _ => false

/-- Whether the entries of a value are numbers: truth values may stand among them, but not alone. -/
def isNumeric (v : Value) : Bool :=
  let entries := v.leaves
  entries.all isNumberOrBool && (entries.isEmpty || entries.any isNumber)

end Value

namespace Tensor

/-! ## Arrays of given shape -/

/-- The three entries of an array of shape three. -/
def toVec3? {α : Type} (t : Tensor α) : Option (Vec3 α) :=
  if t.shape = [3] then Vec3.ofList? t.data.toList else none

/-- The rows of a three by three array. -/
def toMat3? {α : Type} (t : Tensor α) : Option (Mat3 α) :=
  if t.shape = [3, 3] then
    match t.data.toList with
    | [a, b, c, d, e, f, g, h, i] => some ⟨⟨a, b, c⟩, ⟨d, e, f⟩, ⟨g, h, i⟩⟩
    | _ => none
  else none

/-- The rows of an array as points, in order. -/
def rowPoints {α : Type} : List α → List (Vec3 α)
  | x :: y :: z :: rest => ⟨x, y, z⟩ :: rowPoints rest
  | _ => []

/-- The points that an array of rows of three numbers holds (`_as_points`). A single row may stand
    alone. -/
def toPoints {α : Type} (t : Tensor α) : Except (Error α) (List (Vec3 α)) :=
  let shape := if t.rank = 1 then 1 :: t.shape else t.shape
  match shape with
  | [_, 3] => .ok (rowPoints t.data.toList)
  | _ => .error (.pointsShape shape)

/-- The array of a vector. -/
def ofVec3 {α : Type} (v : Vec3 α) : Tensor α := ⟨[3], v.toList.toArray⟩

/-- The array of a matrix. -/
def ofMat3 {α : Type} (m : Mat3 α) : Tensor α := ⟨[3, 3], m.entries.toArray⟩

/-- The array of a list of points. -/
def ofPoints {α : Type} (ps : List (Vec3 α)) : Tensor α := ⟨[ps.length, 3], (ps.flatMap Vec3.toList).toArray⟩

end Tensor

end Clearance
