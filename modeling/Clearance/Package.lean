import Clearance.Error

/-!
# The package

What the package offers by name. Its parts are loaded only when something is asked of them; until
then a part lists nothing but the place where its own list would be.

* `Package.part?`: the names that a part offers.
* `Package.attributeKind`: of what kind an attribute of the package itself is.
* `Package.inspect`: which names a freshly named part has, and what it lists before and after being
  asked.
-/

namespace Clearance.Package

/-- The version of the package. -/
def version : String := "0.1.0"

/-- The parts of the package. -/
def parts : List String :=
  ["collision", "config", "coordinates", "exceptions", "model", "models", "sdf", "shapes"]

/-- The attributes that the package lists, in order (`__all__`). -/
def listed : List String := "__version__" :: parts

/-- The names that every loaded part offers. -/
def standing : List String :=
  ["__builtins__", "__cached__", "__doc__", "__file__", "__loader__", "__name__", "__package__", "__spec__"]

/-- The names that a part answers without being loaded, because the placeholder has them itself. -/
def placeholderNames : List String :=
  ["__name__", "_name", "_module", "__class__", "__delattr__", "__dict__", "__dir__", "__doc__", "__eq__",
   "__format__", "__ge__", "__getattr__", "__getattribute__", "__getstate__", "__gt__", "__hash__", "__init__",
   "__init_subclass__", "__le__", "__lt__", "__module__", "__ne__", "__new__", "__reduce__", "__reduce_ex__",
   "__repr__", "__setattr__", "__sizeof__", "__str__", "__subclasshook__", "__weakref__"]

/-- The names that a part offers besides the standing ones. -/
def part? : String → Option (List String)
  | "collision" => some
    ["__path__", "AllowedCollisionMatrix", "AttachedBody", "CollisionBody", "LinkGeometry",
     "CollisionRobotDistanceField", "CollisionRequest", "CollisionResult", "Contact", "pair_key",
     "CollisionWorldDistanceField", "WorldObject", "WorldObjectStore", "acm", "link_geometry", "narrow_phase",
     "robot", "types", "world"]
  | "config" => some
    ["os", "_default_resolution", "_default_padding_voxels", "_default_max_dims", "get_default_resolution",
     "get_default_padding_voxels", "get_default_max_dims"]
  | "coordinates" => some
    ["__path__", "Coordinates", "Transform", "as_coords", "make_coords", "convert_to_axis_vector",
     "normalize_vector", "quaternion2matrix", "rotation_matrix", "rpy_matrix", "base", "math"]
  | "exceptions" => some ["CollisionError", "GeometryError", "NotFoundError", "InvalidRequestError"]
  | "model" => some
    ["__path__", "FixedJoint", "Joint", "LinearJoint", "RotationalJoint", "Link", "RobotModel", "RobotState",
     "joint", "link", "robot_model"]
  | "models" => some ["__path__", "DualArmRobot", "dual_arm"]
  | "sdf" => some
    ["__path__", "DistanceField", "DistanceFieldCache", "signed_distance_transform", "transformed_bounds",
     "distance_field"]
  | "shapes" => some
    ["dataclass", "field", "hashlib", "np", "cKDTree", "_lazy_trimesh", "_as_points", "_n_samples", "Shape",
     "Box", "Sphere", "Cylinder", "Mesh", "SHAPE_TYPES", "validate_shape"]
  | "collision.acm" => some ["_pair_key", "AllowedCollisionMatrix"]
  | "collision.link_geometry" => some
    ["OrderedDict", "getLogger", "np", "ROBOT_ATTACHED", "ROBOT_LINK", "as_coords", "GeometryError",
     "NotFoundError", "DistanceField", "validate_shape", "logger", "CollisionBody", "AttachedBody",
     "LinkGeometry"]
  | "collision.narrow_phase" => some
    ["namedtuple", "getLogger", "np", "Contact", "pair_key", "logger", "BodyRef", "PairEvaluation", "_query",
     "evaluate_pair", "bounding_gap", "_record_collision", "check_pairs"]
  | "collision.robot" => some
    ["getLogger", "LinkGeometry", "BodyRef", "check_pairs", "CollisionRequest", "CollisionResult", "pair_key",
     "ROBOT_ATTACHED", "ROBOT_LINK", "WHOLE_BODY", "InvalidRequestError", "NotFoundError",
     "DistanceFieldCache", "logger", "CollisionRobotDistanceField"]
  | "collision.types" => some
    ["dataclass", "Optional", "np", "InvalidRequestError", "ROBOT_LINK", "ROBOT_ATTACHED", "WORLD_OBJECT",
     "WHOLE_BODY", "pair_key", "CollisionRequest", "Contact", "CollisionResult"]
  | "collision.world" => some
    ["OrderedDict", "getLogger", "CollisionBody", "BodyRef", "check_pairs", "CollisionRequest",
     "CollisionResult", "WORLD_OBJECT", "as_coords", "NotFoundError", "DistanceFieldCache", "logger",
     "WorldObject", "WorldObjectStore", "CollisionWorldDistanceField"]
  | "coordinates.base" => some
    ["copy", "np", "_check_valid_rotation", "_check_valid_translation", "quaternion2matrix", "rotation_matrix",
     "rpy_matrix", "Transform", "_parse_rotation", "Coordinates", "make_coords", "as_coords"]
  | "coordinates.math" => some
    ["np", "_AXIS_VECTORS", "convert_to_axis_vector", "_check_valid_rotation", "_check_valid_translation",
     "normalize_vector", "rotation_matrix", "quaternion2matrix", "rpy_matrix"]
  | "model.joint" => some
    ["getLogger", "np", "as_coords", "convert_to_axis_vector", "Coordinates", "normalize_vector",
     "rotation_matrix", "logger", "Joint", "RotationalJoint", "LinearJoint", "FixedJoint"]
  | "model.link" => some ["Sequence", "as_coords", "validate_shape", "Link"]
  | "model.robot_model" => some
    ["OrderedDict", "getLogger", "as_coords", "Coordinates", "NotFoundError", "FixedJoint", "Link", "logger",
     "get_ancestors", "RobotModel", "RobotState"]
  | "models.dual_arm" => some
    ["np", "Coordinates", "LinearJoint", "RobotModel", "RotationalJoint", "Box", "Sphere", "DualArmRobot"]
  | "sdf.distance_field" => some
    ["OrderedDict", "getLogger", "np", "RegularGridInterpolator", "distance_transform_edt",
     "get_default_max_dims", "get_default_padding_voxels", "get_default_resolution", "as_coords",
     "GeometryError", "validate_shape", "logger", "_as_points", "transformed_bounds",
     "signed_distance_transform", "_n_voxels", "_grid_layout", "DistanceField", "DistanceFieldCache"]
  | "_lazy_imports" => some ["_trimesh", "_lazy_trimesh"]
  | _ => none

/-- The kinds of the attributes that are no parts. -/
def otherKinds : List (String × String) :=
  [("_lazy_imports", "module"), ("importlib", "module"), ("_module_cache", "dict"), ("__builtins__", "dict"),
   ("__dict__", "dict"), ("__all__", "list"), ("_SUBMODULES", "list"), ("__path__", "list"),
   ("__version__", "str"), ("submodule", "str"), ("__name__", "str"), ("__file__", "str"),
   ("__cached__", "str"), ("__package__", "str"), ("_version", "NoneType"), ("__doc__", "NoneType"),
   ("LazyModule", "type"), ("__class__", "type"), ("determine_version", "function"),
   ("__getattr__", "function"), ("__dir__", "function"), ("__spec__", "ModuleSpec"),
   ("__loader__", "SourceFileLoader")]

/-- The kind of an attribute of the package (`__getattr__`). -/
def attributeKind {α : Type} (name : String) : Except (Error α) String :=
  if parts.contains name then .ok "module"
  else
    match otherKinds.lookup name with
    | some kind => .ok kind
    | none => .error (.unknownAttribute name)

/-- What a part that is named anew shows of some names. -/
structure Inspection where
  /-- What it lists before anything is asked. -/
  before : List String
  /-- The names that it has. -/
  found : List String
  /-- The names that it lists afterwards. -/
  after : List String
  deriving Repr, DecidableEq

/-- What a part that is not loaded lists (`LazyModule`). -/
def unloaded : List String := ["__all__"]

/-- Asks a part for names. The first name that the placeholder does not have itself loads the part,
    which fails if there is no such part. -/
def inspect {α : Type} (part : String) (names : List String) : Except (Error α) Inspection :=
  if names.all placeholderNames.contains then .ok ⟨unloaded, names, names.filter unloaded.contains⟩
  else
    match part? part with
    | none => .error (.fault .missingModule)
    | some offered =>
      let offered := standing ++ offered
      .ok ⟨unloaded, names.filter fun n => placeholderNames.contains n || offered.contains n,
        names.filter offered.contains⟩

end Clearance.Package
