import Clearance.Input.Given
import Clearance.Geometry.Vec3

/-!
# Events

What the library reports while it works, besides its results. Each event has a level of importance;
`Clearance.Event.Message` writes the texts.
-/

namespace Clearance

/-- The importance of an event. -/
inductive Level where
  | debug
  | info
  | warning
  deriving Repr, DecidableEq

/-- Which end of its range a joint was asked to leave. -/
inductive LimitSide where
  | least
  | greatest
  deriving Repr, DecidableEq

/-- Why a pair of bodies is not checked. -/
inductive Skip where
  /-- Both bodies are attached to one link and move together with it. -/
  | attachedTo (link : String)
  /-- The bodies belong to neighbouring links. -/
  | adjacent
  /-- The pair is allowed to collide. -/
  | allowed
  /-- One of the bodies may touch the other. -/
  | touching
  deriving Repr, DecidableEq

/-- Something reported. -/
inductive Event (α : Type) where
  /-- The grid would have been too large. -/
  | coarsened (dims : Vec3 Int) (maxDims : Given α) (before : Given α) (after : α)
  | fieldBuilt (dims : Vec3 Int) (resolution : α) (occupied : Nat)
  /-- A joint was asked for a value beyond a limit. -/
  | jointLimit (joint : String) (asked : Given α) (side : LimitSide) (limit : Given α)
  | robotCreated (links : Nat) (robot : Option String)
  | bodyReplaced (body link : String)
  | bodyAttached (body : String) (shapes : Nat) (link : String)
  | bodyDetached (body link : String)
  | objectReplaced (name : String)
  | objectAdded (name : String)
  | objectRemoved (name : String)
  | pairSkipped (first second : String) (why : Skip)
  /-- A pair was found in collision. -/
  | collision (first second : String) (depth : α) (verbose : Bool)
  deriving Repr, DecidableEq

/-- The importance of an event: collisions are information if they were asked for. -/
def Event.level {α : Type} : Event α → Level
  | .coarsened .. | .jointLimit .. => .warning
  | .fieldBuilt .. | .robotCreated .. | .bodyReplaced .. | .objectReplaced .. => .info
  | .collision _ _ _ verbose => if verbose then .info else .debug
  | _ => .debug

end Clearance
