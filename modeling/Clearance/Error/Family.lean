import Clearance.Error
import Clearance.Text.Quoted

/-!
# Families of errors

The errors of the library's own fall into families, and every family belongs to the wider ones that
a caller may catch: a lookup that fails, or a value that is refused.

* `Error.family?`: the family of an error, absent for the errors that a caller would expect anyway.
* `ErrorFamily.text`: the text of an error that is raised with given words.
-/

namespace Clearance

/-- The families of errors. -/
inductive ErrorFamily where
  /-- Any error of this library. -/
  | base
  /-- Shapes or a resolution that give no usable field. -/
  | geometry
  /-- A link, body, object or group that is unknown. -/
  | notFound
  /-- A query that cannot be served. -/
  | invalidRequest
  deriving Repr, DecidableEq

namespace ErrorFamily

/-- The name of a family. -/
def name : ErrorFamily → String
  | .base => "CollisionError"
  | .geometry => "GeometryError"
  | .notFound => "NotFoundError"
  | .invalidRequest => "InvalidRequestError"

/-- All families. -/
def all : List ErrorFamily := [.base, .geometry, .notFound, .invalidRequest]

/-- The family of a name. -/
def named? (name : String) : Option ErrorFamily := all.find? fun f => f.name == name

/-- Whether an error of the family is a failed lookup of a key. -/
def isLookup (f : ErrorFamily) : Bool := f == .notFound

/-- Whether an error of the family is a refused value. -/
def isValue (f : ErrorFamily) : Bool := f == .geometry || f == .invalidRequest

/-- The text of an error raised with words: nothing without any, a single one as it is, several as a
    tuple. -/
def text : List String → String
  | [] => ""
  | [word] => word
  | words => Text.tuple (words.map Text.quote)

end ErrorFamily

/-- The family of an error. -/
def Error.family? {α : Type} : Error α → Option ErrorFamily
  | .fieldRank _ | .fieldDims _ | .fieldResolution _ | .noShapes | .resolutionInvalid _ | .degenerateSphere _
  | .degenerateCylinder _ _ | .degenerateBox | .degenerateMesh | .emptyGrid _ | .noneOccupied _
  | .bodyWithoutShapes _ => some .geometry
  | .unknownLink _ _ | .unknownJoint _ _ | .unknownGroup _ _ | .noJointValue _ | .notAttached _ _
  | .unknownObject _ => some .notFound
  | .capNotNatural _ _ | .requestGroup _ _ => some .invalidRequest
  | _ => none

end Clearance
