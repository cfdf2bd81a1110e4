import Clearance.Input.Given

/-!
# Errors

The causes for which an operation of the library fails. Each constructor carries what its message
shows; `Clearance.Error.Message` writes the messages.

* `Error.fault`: a failure of an elementary operation, which has no message of its own.
* `bind_eq_ok`, `map_eq_ok`, `Fault.lift_eq_ok`: when an operation made of others succeeds.
-/

namespace Clearance

/-- The cause of a failed operation. -/
inductive Error (α : Type) where
  | fault (f : Fault)
  /-- The operation belongs to no particular kind of shape or joint. -/
  | notImplemented
  -- Axes, rotations, positions
  | axisName (name : String)
  | axisShape (shape : List Nat)
  | rotationNotNumeric
  | rotationShape
  | rotationDeterminant
  | positionNotNumeric
  | positionShape
  | positionNotFinite
  | quaternionShape (shape : List Nat)
  | quaternionZero
  | quaternionNotUnit
  | frameName (name : String)
  | notAPose
  | vectorRank
  -- Points and shapes
  | pointsShape (shape : List Nat)
  | extentsShape (shape : List Nat)
  | meshVertices
  | meshFaces
  | notAShape
  -- Distance fields
  | paddingNegative (padding : Given α)
  | maxDimsTooSmall (maxDims : Given α)
  | fieldRank (rank : Nat)
  | fieldDims (dims : List Nat)
  | fieldResolution (resolution : α)
  | gradientsShape (expected found : List Nat)
  | noShapes
  | posesLength (shapes poses : Nat)
  | resolutionInvalid (resolution : α)
  | degenerateSphere (radius : α)
  | degenerateCylinder (radius height : α)
  | degenerateBox
  | degenerateMesh
  | emptyGrid (resolution : α)
  | noneOccupied (resolution : α)
  -- Settings
  | settingNotANumber (text : String)
  | settingNotPositive (text : String)
  -- Robot models
  | linkExists (link : String)
  | rootExists (robot : Option String) (root : String)
  | jointExists (joint : String)
  | unknownLink (robot : Option String) (link : String)
  | unknownJoint (robot : Option String) (joint : String)
  | unknownGroup (robot : Option String) (group : String)
  | noJointValue (joint : String)
  | linkShapesLength (shapes poses : Nat)
  -- Bodies, worlds and queries
  | bodyWithoutShapes (name : String)
  | spacingNotPositive (spacing : Given α)
  | notAttached (body link : String)
  | unknownObject (name : String)
  | capNotNatural (field : String) (cap : Given α)
  | requestGroup (robot : Option String) (group : Option String)
  -- The package
  | unknownAttribute (name : String)
  deriving Repr, DecidableEq

/-- A failed elementary operation fails the operation it is part of. -/
@[inline] def Fault.lift {α β : Type} : Except Fault β → Except (Error α) β
  | .ok b => .ok b
  | .error f => .error (.fault f)

/-- Two steps succeed together if each of them does. -/
theorem bind_eq_ok {ε α β : Type} {x : Except ε α} {f : α → Except ε β} {b : β} :
    (x >>= f) = .ok b ↔ ∃ a, x = .ok a ∧ f a = .ok b := by
  constructor
  · intro h
    match x, h with
    | .ok a, h => exact ⟨a, rfl, h⟩
  · rintro ⟨a, rfl, h⟩
    exact h

/-- An image is given if there is something to take the image of. -/
theorem map_eq_ok {ε α β : Type} {x : Except ε α} {f : α → β} {b : β} :
    x.map f = .ok b ↔ ∃ a, x = .ok a ∧ f a = b := by
  cases x with
  | error e => exact ⟨nofun, nofun⟩
  | ok a => exact ⟨fun h => ⟨a, rfl, Except.ok.inj h⟩, fun ⟨a', ha, h⟩ => by rw [Except.ok.inj ha, ← h]; rfl⟩

/-- What comes after a check is reached if the check passes. -/
theorem check_eq_ok {ε β : Type} {c : Prop} [Decidable c] {e : ε} {k : PUnit → Except ε β} {b : β} :
    (if c then throw e >>= k else k ⟨⟩) = .ok b ↔ ¬ c ∧ k ⟨⟩ = .ok b := by
  by_cases h : c
  · rw [if_pos h]
    exact ⟨fun h' => (by cases h'), fun h' => absurd h h'.1⟩
  · rw [if_neg h]
    exact ⟨fun h' => ⟨h, h'⟩, fun h' => h'.2⟩

theorem Fault.lift_eq_ok {α β : Type} {x : Except Fault β} {b : β} :
    (Fault.lift x : Except (Error α) β) = .ok b ↔ x = .ok b := by
  cases x <;> simp [Fault.lift]

theorem Fault.lift_eq_error {α β : Type} {x : Except Fault β} {f : Fault} :
    (Fault.lift x : Except (Error α) β) = .error (.fault f) ↔ x = .error f := by
  cases x <;> simp [Fault.lift]

instance {α : Type} : MonadLift (Except Fault) (Except (Error α)) := ⟨Fault.lift⟩

end Clearance
