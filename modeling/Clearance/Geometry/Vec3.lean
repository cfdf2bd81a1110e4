import Clearance.Scalar

/-!
# Vectors of three scalars

Points, directions and extents of space. Sums over the coordinates are taken from the left.

* `Vec3.norm`: the square root of the sum of the squares.
* `Vec3.minimum`, `Vec3.maximum`: the corners of the bounding box of a list of points.
-/

namespace Clearance

/-- A point or a direction of space. -/
@[ext]
structure Vec3 (α : Type) where
  x : α
  y : α
  z : α
  deriving Repr, DecidableEq

namespace Vec3

variable {α β : Type}

/-- The coordinates in order. -/
def toList (v : Vec3 α) : List α := [v.x, v.y, v.z]

/-- The vector whose coordinates are three values in order. -/
def ofList? : List α → Option (Vec3 α)
  | [x, y, z] => some ⟨x, y, z⟩
  | _ => none

@[simp] theorem ofList?_toList (v : Vec3 α) : ofList? v.toList = some v := rfl

@[inline] def map (f : α → β) (v : Vec3 α) : Vec3 β := ⟨f v.x, f v.y, f v.z⟩

@[inline] def zipWith (f : α → α → β) (u v : Vec3 α) : Vec3 β := ⟨f u.x v.x, f u.y v.y, f u.z v.z⟩

/-- Whether all coordinates satisfy a test. -/
@[inline] def all (p : α → Bool) (v : Vec3 α) : Bool := p v.x && p v.y && p v.z

/-- Whether some coordinate satisfies a test. -/
@[inline] def any (p : α → Bool) (v : Vec3 α) : Bool := p v.x || p v.y || p v.z

/-- The vector with one value in every coordinate. -/
@[inline] def replicate (a : α) : Vec3 α := ⟨a, a, a⟩

variable [Scalar α]

instance : Inhabited (Vec3 α) := ⟨⟨0, 0, 0⟩⟩

@[inline] def add (u v : Vec3 α) : Vec3 α := ⟨u.x + v.x, u.y + v.y, u.z + v.z⟩

@[inline] def sub (u v : Vec3 α) : Vec3 α := ⟨u.x - v.x, u.y - v.y, u.z - v.z⟩

@[inline] def neg (v : Vec3 α) : Vec3 α := ⟨-v.x, -v.y, -v.z⟩

@[inline] instance : Add (Vec3 α) := ⟨add⟩

@[inline] instance : Sub (Vec3 α) := ⟨sub⟩

@[inline] instance : Neg (Vec3 α) := ⟨neg⟩

/-- The multiple of a vector by a scalar. -/
@[inline] def scale (a : α) (v : Vec3 α) : Vec3 α := ⟨a * v.x, a * v.y, a * v.z⟩

/-- The vector with every coordinate divided by a scalar. -/
@[inline] def divide (v : Vec3 α) (a : α) : Vec3 α := ⟨v.x / a, v.y / a, v.z / a⟩

/-- The scalar product. -/
@[inline] def dot (u v : Vec3 α) : α := u.x * v.x + u.y * v.y + u.z * v.z

/-- The vector product. -/
@[inline] def cross (u v : Vec3 α) : Vec3 α :=
  ⟨u.y * v.z - u.z * v.y, u.z * v.x - u.x * v.z, u.x * v.y - u.y * v.x⟩

/-- The length of a vector. -/
@[inline] def norm (v : Vec3 α) : α := Scalar.sqrt (dot v v)

/-- The coordinatewise absolute value. -/
@[inline] def abs (v : Vec3 α) : Vec3 α := map Scalar.abs v

/-- The coordinatewise larger of two vectors. -/
@[inline] def max (u v : Vec3 α) : Vec3 α := zipWith Scalar.max u v

/-- The coordinatewise smaller of two vectors. -/
@[inline] def min (u v : Vec3 α) : Vec3 α := zipWith Scalar.min u v

/-- The greatest coordinate. -/
@[inline] def maxCoord (v : Vec3 α) : α := Scalar.max (Scalar.max v.x v.y) v.z

/-- The point of the box between two corners nearest to a point. -/
@[inline] def clip (v lo hi : Vec3 α) : Vec3 α := min (max v lo) hi

/-- Whether all coordinates are finite. -/
def isFinite (v : Vec3 α) : Bool := v.all Scalar.isFinite

/-- A vector divided by its length; the zero vector is handed back unchanged
    (`normalize_vector`). -/
def normalize (v : Vec3 α) : Vec3 α :=
  let n := v.norm
  if Scalar.eq n 0 then v else v.divide n

/-- The least corner of the bounding box of points. -/
def minimum : List (Vec3 α) → Option (Vec3 α)
  | [] => none
  | v :: vs => some (vs.foldl min v)

/-- The greatest corner of the bounding box of points. -/
def maximum : List (Vec3 α) → Option (Vec3 α)
  | [] => none
  | v :: vs => some (vs.foldl max v)

end Vec3

end Clearance
