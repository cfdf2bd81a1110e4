import Clearance.Error
import Clearance.Number.Reading

/-!
# Collision requests

What a query asks for: which links, whether contacts are wanted and how many at most, and whether
the least distance is wanted. The two caps have to be natural numbers, in whatever way they are
written.

* `CollisionRequest.validate`: refuses other caps.
* `CollisionRequest.perPair`: how many contacts a pair may have, at least one.
* `CollisionRequest.exhaustive`: whether all pairs are looked at.
-/

namespace Clearance

/-- The parameters of a query (`CollisionRequest`). -/
structure CollisionRequest (α : Type) where
  /-- The group of links; nothing stands for all links. -/
  group : Option String
  contacts : Bool
  maxContacts : Given α
  maxPerPair : Given α
  /-- Whether collisions are worth more than a line for debugging. -/
  verbose : Bool
  distance : Bool
  deriving Repr, DecidableEq

/-- The name of the group of all links. -/
def wholeBody : String := "whole_body"

namespace CollisionRequest

variable {α : Type} [Scalar α]

/-- A request for no more than a verdict on all links. -/
def standard : CollisionRequest α := ⟨some wholeBody, false, .int 1, .int 1, false, false⟩

/-- A request for the least distance between the links of a group. -/
def forDistance (group : Option String) : CollisionRequest α :=
  { standard with group := group, distance := true }

/-- The integer part of a parameter. -/
def wholePart : Given α → Except Fault Int
  | .int n => .ok n
  | .bool b => .ok (if b then 1 else 0)
  | .real x =>
    if Scalar.isNaN x then .error .value
    else if Scalar.isFinite x then .ok (if Scalar.lt x 0 then -(Scalar.floor (-x)) else Scalar.floor x)
    else .error .overflow
  | .text s _ =>
    match Reading.int? s with
    | some n => .ok n
    | none => .error .value
  | .other => .error .kind

/-- Whether a parameter is a natural number, given its integer part. A text never is. -/
def isNatural (whole : Int) : Given α → Bool
  | .int n => 0 ≤ n
  | .bool _ => true
  | .real x => Scalar.eq x (Scalar.ofInt whole) && Scalar.le 0 x
  | _ => false

/-- Refuses a cap that is no natural number. -/
def checkCap (field : String) (cap : Given α) : Except (Error α) Unit := do
  let whole ← Fault.lift (wholePart cap)
  if isNatural whole cap then return () else throw (.capNotNatural field cap)

/-- Refuses caps that are no natural numbers (`validate`). -/
def validate (r : CollisionRequest α) : Except (Error α) Unit := do
  checkCap "max_contacts" r.maxContacts
  checkCap "max_contacts_per_pair" r.maxPerPair

/-- How many contacts a pair may have: at least one (`contacts_per_pair`). -/
def perPair (r : CollisionRequest α) : Except Fault Int := (wholePart r.maxPerPair).map (max 1)

/-- Whether all pairs are looked at, whatever has been found (`exhaustive`). -/
def exhaustive (r : CollisionRequest α) : Bool := r.verbose || r.distance

end CollisionRequest

end Clearance
