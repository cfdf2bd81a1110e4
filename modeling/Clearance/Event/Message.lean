import Clearance.Event
import Clearance.Text.Written

/-!
# Messages of events

The text of every event.
-/

namespace Clearance

/-- The end of a joint's range that it was asked to leave. -/
def LimitSide.word : LimitSide → String
  | .least => "min"
  | .greatest => "max"

/-- Why a pair is not checked. -/
def Skip.text (first second : String) : Skip → String
  | .attachedTo link => "skip bodies " ++ first ++ " and " ++ second ++ " attached to " ++ link
  | .adjacent => "skip adjacent links " ++ first ++ " and " ++ second
  | .allowed => "skip allowed pair " ++ first ++ " and " ++ second
  | .touching => "skip touch link pair " ++ first ++ " and " ++ second

/-- The text of an event. -/
def Event.message : Event Float → String
  | .coarsened dims maxDims before after =>
    "grid of " ++ Text.integers dims.toList ++ " voxels exceeds max_dims " ++ maxDims.written ++
      ". resolution is coarsened from " ++ before.written ++ " to " ++ Decimal.text after
  | .fieldBuilt dims resolution occupied =>
    "built distance field: dims " ++ Text.integers dims.toList ++ ", resolution " ++ Decimal.text resolution ++
      ", " ++ toString occupied ++ " occupied voxels"
  | .jointLimit joint asked side limit =>
    joint ++ " :joint-angle(" ++ asked.written ++ ") violate " ++ side.word ++ "-angle(" ++ limit.written ++ ")"
  | .robotCreated links robot =>
    "created collision geometry of " ++ toString links ++ " links for robot " ++ Text.optional robot
  | .bodyReplaced body link => "replaced body " ++ body ++ " attached to link " ++ link
  | .bodyAttached body shapes link =>
    "attached body " ++ body ++ " (" ++ toString shapes ++ " shapes) to link " ++ link
  | .bodyDetached body link => "detached body " ++ body ++ " from link " ++ link
  | .objectReplaced name => "replaced world object " ++ name
  | .objectAdded name => "added world object " ++ name
  | .objectRemoved name => "removed world object " ++ name
  | .pairSkipped first second why => why.text first second
  | .collision first second depth _ =>
    "collision between " ++ first ++ " and " ++ second ++ " (depth " ++ Decimal.fixed 4 depth ++ ")"

end Clearance
