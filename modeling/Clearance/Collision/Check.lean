import Clearance.Collision.Pair
import Clearance.Collision.Request
import Clearance.Collision.Result
import Clearance.Event

/-!
# Checking pairs

A query looks at pairs of bodies one after the other and adds what it finds to a result. It stops as
soon as it knows enough: after the first collision if no contacts are wanted, and otherwise when
there are as many contacts as allowed; an exhaustive query looks at all pairs.

* `Check.room`: how many contacts of a pair may still be added.
* `Check.pair`: one pair.
* `Check.run`: a list of candidates, some of which are passed over.
-/

namespace Clearance

/-- A pair of placed bodies that is to be looked at, or is passed over for a reason. -/
inductive Candidate (α : Type) where
  | skipped (first second : String) (why : Skip)
  | pair (a b : PlacedBody α)

/-- How a query goes on after a pair. -/
inductive Next (α : Type) where
  | proceed
  | stop
  | fail (e : Error α)

/-- What a query has come to: the result, the events, and the error that ended it, if any. What was
    added to the result before an error stays. -/
structure Check (α : Type) where
  result : CollisionResult α
  events : Array (Event α)
  failure : Option (Error α)

namespace Check

variable {α : Type} [Scalar α]

/-! ## Contacts -/

/-- How many contacts of a pair may be added: no more than the pair may have, than all pairs may
    have, and than there are. A cap that is written with a fraction cannot count anything, so it
    fails where it decides. -/
def room (request : CollisionRequest α) (result : CollisionResult α) (key : String × String) (found : Nat) :
    Except Fault Nat := do
  let perPair := (← request.perPair) - (result.held key : Int)
  match request.maxContacts with
  | .real cap =>
    let left := cap - Scalar.ofInt (result.contactCount : Int)
    let decides := Scalar.lt left (Scalar.ofInt perPair) && !(Scalar.lt (Scalar.ofInt (found : Int)) left)
    if decides then (if Scalar.lt 0 left then .error .kind else .ok 0)
    else .ok (min perPair (found : Int)).toNat
  | cap => do
    let left := (← CollisionRequest.wholePart cap) - (result.contactCount : Int)
    return (min (min perPair left) (found : Int)).toNat

/-- Whether there are as many contacts as allowed. -/
def isFull (request : CollisionRequest α) (result : CollisionResult α) : Bool :=
  match request.maxContacts with
  | .real cap => Scalar.le cap (Scalar.ofInt (result.contactCount : Int))
  | cap =>
    match CollisionRequest.wholePart cap with
    | .ok n => n ≤ (result.contactCount : Int)
    | .error _ => false

/-- The contact at a sample of a pair. -/
def contactAt (p : PlacedPair α) (h : Hit α) : Contact (Vec3 α) α :=
  ⟨h.position, Scalar.abs h.distance, h.normal, p.key.1, p.key.2, p.types.1, p.types.2⟩

/-- The samples behind a collision, the deepest first. -/
def collidingHits (hits : List (Hit α)) : List (Hit α) :=
  let table := hits.toArray
  (collidingPlaces (hits.map Hit.distance)).filterMap fun i => table[i]?

/-! ## One pair -/

/-- Records a collision: the contacts that may be added, the deepest first, and whether to go on
    (`_record_collision`). -/
def record (request : CollisionRequest α) (result : CollisionResult α) (p : PlacedPair α) (hits : List (Hit α)) :
    CollisionResult α × Next α :=
  let result := { result with collision := true }
  let ended : Next α := if request.exhaustive then .proceed else .stop
  if !request.contacts then (result, ended)
  else
    let found := collidingHits hits
    match room request result p.key found.length with
    | .error f => (result, .fail (.fault f))
    | .ok n =>
      let result := ((found.take n).map (contactAt p)).foldl (fun r c => r.addContact p.key c) result
      (result, if isFull request result then ended else .proceed)

/-- Looks at a pair. Unless the least distance is wanted, bodies whose spheres are far apart are
    passed over. -/
def pair (request : CollisionRequest α) (result : CollisionResult α) (a b : PlacedBody α) :
    CollisionResult α × List (Event α) × Next α :=
  match PlacedPair.of a b with
  | .error f => (result, [], .fail (.fault f))
  | .ok p =>
    if !request.distance && p.isFar then (result, [], .proceed)
    else
      let hits := p.hits
      let least := Scalar.minimum (hits.map Hit.distance)
      let result := if request.distance then { result with distance := lesser result.distance least } else result
      match least with
      | some d =>
        if collides least then
          let (result, next) := record request result p hits
          (result, [.collision p.key.1 p.key.2 (-d) request.verbose], next)
        else (result, [], .proceed)
      | none => (result, [], .proceed)

/-! ## All pairs -/

/-- Looks at candidates in order, as long as the query goes on (`check_pairs`). -/
def run (request : CollisionRequest α) : List (Candidate α) → CollisionResult α → Array (Event α) → Check α
  | [], result, events => ⟨result, events, none⟩
  | .skipped first second why :: rest, result, events =>
    run request rest result (events.push (.pairSkipped first second why))
  | .pair a b :: rest, result, events =>
    let (result, more, next) := pair request result a b
    let events := events ++ more.toArray
    match next with
    | .proceed => run request rest result events
    | .stop => ⟨result, events, none⟩
    | .fail e => ⟨result, events, some e⟩

/-- A query that failed before it looked at any pair. -/
def refused (result : CollisionResult α) (e : Error α) : Check α := ⟨result, #[], some e⟩

end Check

end Clearance
