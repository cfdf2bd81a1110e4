import Clearance.Geometry.Vec3
import Clearance.Table
import Clearance.Text.Quoted

/-!
# Contacts and results

A contact is a point at which two bodies overlap. A result gathers the contacts of a query under the
pairs of their bodies, the verdict, and the least distance; queries add to it and do not clear it.

* `CollisionResult.addContact`: one more contact.
* `CollisionResult.held`: how many contacts a pair has.
-/

namespace Clearance

/-- A point in two bodies, how deep it lies, and the direction that pushes the second body out of
    the first (`Contact`). -/
structure Contact (π α : Type) where
  position : π
  depth : α
  normal : π
  first : String
  second : String
  firstType : String
  secondType : String
  deriving Repr, DecidableEq

/-- What queries have found (`CollisionResult`). -/
structure CollisionResult (α : Type) where
  collision : Bool
  contactCount : Nat
  contacts : Table (String × String) (List (Contact (Vec3 α) α))
  /-- The least distance; absent if it is infinite. -/
  distance : Option α

namespace CollisionResult

variable {α : Type}

/-- The result of no query. -/
def empty : CollisionResult α := ⟨false, 0, Table.empty, none⟩

/-- How many contacts a pair has. -/
def held (r : CollisionResult α) (key : String × String) : Nat := ((r.contacts.find? key).getD []).length

/-- One more contact of a pair (`add_contact`). -/
def addContact (r : CollisionResult α) (key : String × String) (c : Contact (Vec3 α) α) : CollisionResult α :=
  { r with
    contactCount := r.contactCount + 1
    contacts := r.contacts.set key ((r.contacts.find? key).getD [] ++ [c]) }

/-- The description of a result. -/
def written (r : CollisionResult α) : String :=
  "<CollisionResult collision=" ++ Text.truth r.collision ++ " contact_count=" ++ toString r.contactCount ++
    " pairs=" ++ toString r.contacts.size ++ ">"

end CollisionResult

end Clearance
