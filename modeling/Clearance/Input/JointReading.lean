import Clearance.Input.PoseReading
import Clearance.Robot.Model

/-!
# Reading joints and links

Joints and the origins of links from loosely typed values.

* `Read.joint`: a joint from the parameters that were given for it.
* `Read.linkOrigin`: what may stand where the origin of a link belongs.
-/

namespace Clearance

/-- The kinds of joints that can be asked for. -/
inductive JointWord where
  | fixed
  | rotational
  | linear
  | unspecified
  deriving Repr, DecidableEq

/-- The parameters of a joint; those that were not given are absent. -/
structure JointSource where
  name : Option String
  axis : Option Value
  least : Option (Given Float)
  greatest : Option (Given Float)
  origin : PoseSource Float

namespace Read

/-- The axis along which a joint moves unless another is given. -/
def defaultAxis : Value := .text "z"

/-- A joint. Parameters that its kind does not take are refused first; then the origin is read, and
    last the axis. -/
def joint (word : JointWord) (s : JointSource) : Except (Error Float) (Joint Float) := do
  match word with
  | .fixed =>
    if s.axis.isSome || s.least.isSome || s.greatest.isSome then throw (.fault .kind)
    return Joint.fixed s.name (← s.origin.toPose)
  | .unspecified =>
    if s.axis.isSome then throw (.fault .kind)
    return Joint.unspecified s.name (← s.origin.toPose) s.least s.greatest
  | .rotational =>
    let origin ← s.origin.toPose
    return Joint.rotational s.name (← axis (s.axis.getD defaultAxis)) origin s.least s.greatest
  | .linear =>
    let origin ← s.origin.toPose
    return Joint.linear s.name (← axis (s.axis.getD defaultAxis)) origin s.least s.greatest

/-- The number of items of a value, if it has items at all. -/
def itemCount? : Value → Option Nat
  | .list items => some items.length
  | .text s => some s.length
  | .tensor ⟨n :: _, _⟩ => some n
  | _ => none

/-- A value where the origin of a link belongs: three items are a position. -/
def linkOrigin (v : Value) : Option (PoseSource Float) :=
  match v, itemCount? v with
  | .null, _ => none
  | _, none => some (.read (.error (.fault .kind)))
  | v, some 3 => some (.read (pose v .null none))
  | v, some _ => some (poseSource v)

end Read

end Clearance
