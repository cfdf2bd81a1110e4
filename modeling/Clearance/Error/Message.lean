import Clearance.Error
import Clearance.Text.Written

/-!
# Messages of errors

The text of every error, with the parameters as they were given. A failed elementary operation has
none.
-/

namespace Clearance

/-- The text of a refusal of a shape without volume. -/
def Error.degenerateText (shape : String) : String := "degenerate shape " ++ shape ++ " has no volume"

/-- The text of a refusal of lists of unequal length. -/
def Error.lengthsText (what whose : String) (count count' : Nat) : String :=
  "length of " ++ what ++ " (" ++ toString count ++ ") and " ++ whose ++ " (" ++ toString count' ++
    ") must be the same"

/-- The text of a lookup that fails in a robot. -/
def Error.robotLacksText (robot : Option String) (kind name : String) : String :=
  "robot " ++ Text.optional robot ++ " has no " ++ kind ++ " " ++ name

/-- The text of an error. -/
def Error.message? : Error Float → Option String
  | .fault _ => none
  | .notImplemented => some ""
  | .axisName name => some ("Axis conversion for '" ++ name ++ "' is not supported.")
  | .axisShape shape => some ("Axis must be a 3-vector, got shape " ++ Text.lengths shape)
  | .rotationNotNumeric => some "Rotation must be specified as numeric numpy array"
  | .rotationShape => some "Rotation must be specified as a 3x3 ndarray"
  | .rotationDeterminant => some "Illegal rotation. Must have determinant == 1.0"
  | .positionNotNumeric => some "Translation must be specified as numeric numpy array"
  | .positionShape =>
    some "Translation must be specified as a 3-vector, 3x1 ndarray, or 1x3 ndarray"
  | .positionNotFinite => some "Translation must be finite"
  | .quaternionShape shape => some ("quaternion must be 4-vector, get " ++ Text.lengths shape)
  | .quaternionZero => some "quaternion norm must not be zero"
  | .quaternionNotUnit => some "quaternion q's norm is not 1"
  | .frameName name => some ("wrt " ++ name ++ " is not supported")
  | .notAPose => some "pose must be Coordinates, Transform, 4x4 matrix or None, but got <class>"
  | .vectorRank => some "vec must be either 1 or 2 dimensional."
  | .pointsShape shape => some ("points must be (n_point, 3) array, get " ++ Text.lengths shape)
  | .extentsShape shape => some ("extents must be 3-vector, get " ++ Text.lengths shape)
  | .meshVertices => some "vertices must be (n, 3) array"
  | .meshFaces => some "faces must be (n, 3) array"
  | .notAShape => some "shape must be one of ['Box', 'Sphere', 'Cylinder', 'Mesh'], but got <class>"
  | .paddingNegative padding => some ("padding must be non negative, get " ++ padding.written)
  | .maxDimsTooSmall maxDims => some ("max_dims " ++ maxDims.written ++ " is too small")
  | .fieldRank rank => some ("sdf_data must be 3 dimensional, get " ++ toString rank)
  | .fieldDims dims => some ("distance field grid is empty: dims " ++ Text.lengths dims)
  | .fieldResolution r => some ("resolution must be positive, get " ++ Decimal.text r)
  | .gradientsShape expected found =>
    some ("gradients must be of shape " ++ Text.lengths expected ++ ", get " ++ Text.lengths found)
  | .noShapes => some "at least one shape is required"
  | .posesLength shapes poses => some (lengthsText "shapes" "poses" shapes poses)
  | .resolutionInvalid r => some ("resolution must be positive and finite, get " ++ Decimal.text r)
  | .degenerateSphere radius => some (degenerateText ("Sphere(radius=" ++ Decimal.text radius ++ ")"))
  | .degenerateCylinder radius height =>
    some (degenerateText
      ("Cylinder(radius=" ++ Decimal.text radius ++ ", height=" ++ Decimal.text height ++ ")"))
  | .degenerateBox => some (degenerateText "Box")
  | .degenerateMesh => some (degenerateText "Mesh")
  | .emptyGrid r => some ("resolution " ++ Decimal.text r ++ " produces an empty grid")
  | .noneOccupied r => some ("resolution " ++ Decimal.text r ++ " is too coarse, no voxel is occupied")
  | .settingNotANumber text => some ("SKCOLLISION_RESOLUTION must be a float, got " ++ text)
  | .settingNotPositive text => some ("SKCOLLISION_RESOLUTION must be positive, got " ++ text)
  | .linkExists link => some ("link " ++ link ++ " already exists")
  | .rootExists robot root => some ("robot " ++ Text.optional robot ++ " already has root link " ++ root)
  | .jointExists joint => some ("joint " ++ joint ++ " already exists")
  | .unknownLink robot link => some (robotLacksText robot "link" link)
  | .unknownJoint robot joint => some (robotLacksText robot "joint" joint)
  | .unknownGroup robot group => some (robotLacksText robot "group" group)
  | .noJointValue joint => some ("no joint value for " ++ joint)
  | .linkShapesLength shapes poses => some (lengthsText "collision_shapes" "shape_poses" shapes poses)
  | .bodyWithoutShapes name => some ("body " ++ name ++ " has no shapes")
  | .spacingNotPositive spacing => some ("surface_spacing must be positive, get " ++ spacing.written)
  | .notAttached body link => some ("no body " ++ body ++ " attached to link " ++ link)
  | .unknownObject name => some ("no world object " ++ name)
  | .capNotNatural field cap => some (field ++ " must be a non negative integer, get " ++ cap.written)
  | .requestGroup robot group => some (robotLacksText robot "group" (Text.optional group))
  | .unknownAttribute name => some ("module skcollision has no attribute " ++ name)

end Clearance
