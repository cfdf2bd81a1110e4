import Clearance.Geometry.Vec3

/-!
# Matrices of three rows

Linear maps of space, and the determinant by elimination with the pivot of greatest size, which is
how a finite precision computes it best. `Mat3.mulVec` applies a matrix to a column, `Mat3.vecMul` a
row to a matrix.
-/

namespace Clearance

/-- A matrix given by its rows. -/
structure Mat3 (α : Type) where
  row1 : Vec3 α
  row2 : Vec3 α
  row3 : Vec3 α
  deriving Repr, DecidableEq

namespace Mat3

variable {α : Type}

/-- The rows in order. -/
def toList (m : Mat3 α) : List (Vec3 α) := [m.row1, m.row2, m.row3]

/-- The entries row by row. -/
def entries (m : Mat3 α) : List α := m.row1.toList ++ m.row2.toList ++ m.row3.toList

@[inline] def transpose (m : Mat3 α) : Mat3 α :=
  ⟨⟨m.row1.x, m.row2.x, m.row3.x⟩, ⟨m.row1.y, m.row2.y, m.row3.y⟩, ⟨m.row1.z, m.row2.z, m.row3.z⟩⟩

@[simp] theorem transpose_transpose (m : Mat3 α) : m.transpose.transpose = m := rfl

variable [Scalar α]

/-- The identity matrix. -/
def identity : Mat3 α := ⟨⟨1, 0, 0⟩, ⟨0, 1, 0⟩, ⟨0, 0, 1⟩⟩

instance : Inhabited (Mat3 α) := ⟨identity⟩

/-- The matrix applied to a column. -/
@[inline] def mulVec (m : Mat3 α) (v : Vec3 α) : Vec3 α :=
  ⟨m.row1.dot v, m.row2.dot v, m.row3.dot v⟩

/-- A row multiplied by the matrix from the right. -/
@[inline] def vecMul (v : Vec3 α) (m : Mat3 α) : Vec3 α :=
  ⟨v.x * m.row1.x + v.y * m.row2.x + v.z * m.row3.x,
   v.x * m.row1.y + v.y * m.row2.y + v.z * m.row3.y,
   v.x * m.row1.z + v.y * m.row2.z + v.z * m.row3.z⟩

/-- The product of two matrices, each row of the first multiplied by the second. -/
def mul (m n : Mat3 α) : Mat3 α := ⟨vecMul m.row1 n, vecMul m.row2 n, vecMul m.row3 n⟩

/-! ## The determinant -/

/-- Whether a number displaces a pivot: its size is strictly greater. -/
@[inline] def displaces (candidate pivot : α) : Bool := Scalar.lt (Scalar.abs pivot) (Scalar.abs candidate)

/-- The determinant of the two by two matrix with rows `(a, b)` and `(c, d)`, eliminating below the
    entry of greater size in the first column; absent if that column vanishes. -/
def det2 (a b c d : α) : Option α :=
  if displaces c a then some (-(c * (b - a / c * d)))
  else if Scalar.eq a 0 then none
  else some (a * (d - c / a * b))

/-- The determinant of the rows `p`, `q`, `r`, eliminating the first column by the row `p`; absent
    if a column vanishes on the way. -/
def eliminate (p q r : Vec3 α) : Option α :=
  if Scalar.eq p.x 0 then none
  else
    let f := q.x / p.x
    let g := r.x / p.x
    (det2 (q.y - f * p.y) (q.z - f * p.z) (r.y - g * p.y) (r.z - g * p.z)).map (p.x * ·)

/-- The determinant. The pivot of the first column is its first entry of greatest size; exchanging
    two rows changes the sign. A matrix in which a column vanishes during the elimination is
    singular. -/
def det (m : Mat3 α) : α :=
  let pivot2 := displaces m.row2.x m.row1.x
  let best := if pivot2 then m.row2.x else m.row1.x
  let value :=
    if displaces m.row3.x best then (eliminate m.row3 m.row2 m.row1).map (-·)
    else if pivot2 then (eliminate m.row2 m.row1 m.row3).map (-·)
    else eliminate m.row1 m.row2 m.row3
  value.getD 0

end Mat3

end Clearance
