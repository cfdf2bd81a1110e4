import Clearance.Scalar
import Clearance.Input.Given

/-!
# Arrays of any shape

Arrays whose number of axes and lengths nothing has checked, with the operations that motions given
as such arrays need. The entries stand in the order in which the last index runs fastest.

* `Tensor.ofFn`, `Tensor.get`: an array from its entries and back.
* `Tensor.add`, `Tensor.sub`: entry by entry, stretching axes of length one and missing leading
  axes.
* `Tensor.dot`: sums of products over the last axis of the first and the last but one of the second
  array.
-/

namespace Clearance

/-- An array with its lengths along the axes. -/
structure Tensor (α : Type) where
  shape : List Nat
  data : Array α
  deriving Repr, DecidableEq

namespace Tensor

variable {α : Type}

/-- The number of axes. -/
def rank (t : Tensor α) : Nat := t.shape.length

/-- The number of entries of an array with given lengths. -/
def volume (shape : List Nat) : Nat := shape.foldr (· * ·) 1

/-- All indices of an array with given lengths, the last index running fastest. -/
def indices : List Nat → List (List Nat)
  | [] => [[]]
  | n :: rest => (List.range n).flatMap fun i => (indices rest).map (i :: ·)

/-- The place of an entry in the order of `indices`. -/
def offset : List Nat → List Nat → Nat
  | n :: shape, i :: index => (i % n) * volume shape + offset shape index
  | _, _ => 0

/-- The array with given entries. -/
def ofFn (shape : List Nat) (f : List Nat → α) : Tensor α := ⟨shape, ((indices shape).map f).toArray⟩

/-- The array without axes that holds one entry. -/
def scalar (a : α) : Tensor α := ⟨[], #[a]⟩

/-- An array with the entries of a list along one axis. -/
def ofList (xs : List α) : Tensor α := ⟨[xs.length], xs.toArray⟩

def map {β : Type} (f : α → β) (t : Tensor α) : Tensor β := ⟨t.shape, t.data.map f⟩

/-- The array without its axes of length one. -/
def squeeze (t : Tensor α) : Tensor α := ⟨t.shape.filter (· != 1), t.data⟩

variable [Scalar α]

/-- The entry at an index. -/
def get (t : Tensor α) (index : List Nat) : α := t.data.getD (offset t.shape index) 0

/-- The axes in reverse order. -/
def transpose (t : Tensor α) : Tensor α := ofFn t.shape.reverse fun index => t.get index.reverse

/-- An array with one more axis, of length one, in front; an array without axes cannot be given
    one. -/
def addAxis (t : Tensor α) : Except Fault (Tensor α) :=
  if t.rank = 0 then .error .index else .ok ⟨1 :: t.shape, t.data⟩

/-! ## Entry by entry -/

/-- The common lengths, aligned at the last axis, listed from the last axis to the first. -/
def broadcastReversed? : List Nat → List Nat → Option (List Nat)
  | [], bs => some bs
  | as, [] => some as
  | a :: as, b :: bs =>
    if a = b || b = 1 then (broadcastReversed? as bs).map (a :: ·)
    else if a = 1 then (broadcastReversed? as bs).map (b :: ·)
    else none

/-- An entry of an array whose axes of length one and missing leading axes are stretched. -/
def getStretched (t : Tensor α) (index : List Nat) : α := t.get (index.drop (index.length - t.rank))

/-- Two arrays combined entry by entry. -/
def zipWith (f : α → α → α) (s t : Tensor α) : Except Fault (Tensor α) :=
  match broadcastReversed? s.shape.reverse t.shape.reverse with
  | some common => .ok (ofFn common.reverse fun index => f (s.getStretched index) (t.getStretched index))
  | none => .error .value

def add (s t : Tensor α) : Except Fault (Tensor α) := zipWith (· + ·) s t

def sub (s t : Tensor α) : Except Fault (Tensor α) := zipWith (· - ·) s t

/-! ## Products -/

/-- The product of two arrays. A single number scales; otherwise the last axis of the first array is
    summed against the last axis of a row, or the last but one of an array with more axes. -/
def dot (s t : Tensor α) : Except Fault (Tensor α) :=
  match s.shape.reverse, t.shape.reverse with
  | [], _ | _, [] => zipWith (· * ·) s t
  | n :: outer, [m] =>
    if n = m then
      .ok (ofFn outer.reverse fun index =>
        Scalar.sum ((List.range n).map fun k => s.get (index ++ [k]) * t.get [k]))
    else .error .value
  | n :: outer, columns :: m :: rest =>
    if n = m then
      let left := outer.reverse
      .ok (ofFn (left ++ rest.reverse ++ [columns]) fun index =>
        let i := index.take left.length
        let j := index.drop left.length
        let inner := j.take rest.length
        let column := j.drop rest.length
        Scalar.sum ((List.range n).map fun k => s.get (i ++ [k]) * t.get (inner ++ [k] ++ column)))
    else .error .value

end Tensor

end Clearance
