import Clearance.Collision.Request
import Clearance.Input.ShapeReading

/-!
# Reading requests and names

Requests and lists of names from loosely typed values.

* `Read.request`: a request by its fields, which has to be one that can be served.
* `Read.requestField`: one field of a request, which is not looked at any further.
* `Read.names`: the names in whatever can be gone through.
-/

namespace Clearance.Read

/-- A request in which a field has another value. -/
def requestField (r : CollisionRequest Float) (field : String) (v : Value) :
    Except Fault (CollisionRequest Float) :=
  match field with
  | "group_name" =>
    match v with
    | .text s => .ok { r with group := some s }
    | _ => .ok { r with group := none }
  | "contacts" => .ok { r with contacts := isOccupied v }
  | "max_contacts" => .ok { r with maxContacts := v.toGiven }
  | "max_contacts_per_pair" => .ok { r with maxPerPair := v.toGiven }
  | "verbose" => .ok { r with verbose := isOccupied v }
  | "distance" => .ok { r with distance := isOccupied v }
  | _ => .error .kind

/-- A request of given fields. Fields that no request has are refused first, then caps that cannot
    be served. -/
def request (fields : List (String × Value)) : Except (Error Float) (CollisionRequest Float) := do
  let r ← Fault.lift (fields.foldlM (fun r (field, v) => requestField r field v) CollisionRequest.standard)
  r.validate
  return r

/-- The name that an item is; an item that is itself a list can be none. -/
def nameOf : Value → Except Fault (Option String)
  | .text s => .ok (some s)
  | .list _ | .tensor _ | .other => .error .kind
  | _ => .ok none

/-- The names in a list; a text stands for its characters. -/
def names : Value → Except Fault (List String)
  | .list items => (items.mapM nameOf).map fun names => names.filterMap id
  | .text s => .ok (s.toList.map String.singleton)
  | _ => .error .kind

end Clearance.Read
