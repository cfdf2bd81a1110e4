import Clearance.Robot.Model

/-!
# A robot with two arms

A base, a lifting torso and two like arms, each with a shoulder that pans and lifts, an elbow, a
wrist and two fingers, all made of boxes and spheres. At the default values the arms point forward,
and only neighbouring links touch.

* `DualArm.model`: the robot, with the groups of all links and of each arm.
-/

namespace Clearance.DualArm

variable {α : Type} [Scalar α]

/-- A pose that only shifts. -/
def shift (x y z : α) : Pose α := ⟨⟨x, y, z⟩, Mat3.identity, ""⟩

/-- A box of given extents, shifted from the frame of its link. -/
def boxAt (extents : Vec3 α) (pose : Pose α) : ShapeSource α × PoseSource α := (.shape (.box extents), .pose pose)

/-- A link with one shape, shifted from its parent. -/
def linkAt (name parent : String) (joint : Option (Joint α)) (origin : Pose α)
    (shape : ShapeSource α × PoseSource α) : LinkSource α :=
  ⟨name, some parent, joint, some (.pose origin), [shape.1], some [shape.2]⟩

/-- A quarter turn. -/
def quarter : α := Scalar.pi / 2

/-- The base, the bellow on it, and the torso that is lifted. -/
def body : List (LinkSource α) :=
  let base := boxAt ⟨0.6, 0.6, 0.3⟩ (shift (α := α) 0 0 0.15)
  [⟨"base_link", none, none, none, [base.1], some [base.2]⟩,
   linkAt "base_bellow_link" "base_link" none (shift 0 0 0.3) (boxAt ⟨0.2, 0.2, 0.2⟩ (shift 0 0 0.1)),
   linkAt "torso_lift_link" "base_bellow_link"
    (some (Joint.linear (some "torso_lift_joint") ⟨0, 0, 1⟩ Pose.origin (some (.real 0)) (some (.real 0.3))))
    (shift 0 0 0.2) (boxAt ⟨0.3, 0.5, 0.6⟩ (shift 0 0 0.35))]

/-- The links of an arm, of which the letter says the side; `side` is one on the left and minus one
    on the right. -/
def arm (letter : String) (side : α) : List (LinkSource α) :=
  let name (s : String) : String := letter ++ "_" ++ s
  let turning (joint : String) (axis : Vec3 α) (least greatest : α) : Option (Joint α) :=
    some (Joint.rotational (some (name joint)) axis Pose.origin (some (.real least)) (some (.real greatest)))
  let finger (which : String) (offset : α) : LinkSource α :=
    linkAt (name ("gripper_" ++ which ++ "_finger_link")) (name "gripper_palm_link") none (shift 0.1 offset 0)
      (boxAt ⟨0.08, 0.02, 0.02⟩ (shift 0.04 0 0))
  [linkAt (name "shoulder_pan_link") "torso_lift_link"
    (turning "shoulder_pan_joint" ⟨0, 0, 1⟩ (-quarter) quarter) (shift 0 (side * 0.4) 0.6)
    (.shape (.sphere 0.1), .absent),
   linkAt (name "upper_arm_link") (name "shoulder_pan_link")
    (turning "shoulder_lift_joint" ⟨0, 1, 0⟩ (-quarter) quarter) (shift 0 0 0)
    (boxAt ⟨0.3, 0.08, 0.08⟩ (shift 0.25 0 0)),
   linkAt (name "forearm_link") (name "upper_arm_link")
    (turning "elbow_flex_joint" ⟨0, 1, 0⟩ (-2.3) 0) (shift 0.45 0 0)
    (boxAt ⟨0.25, 0.07, 0.07⟩ (shift 0.15 0 0)),
   linkAt (name "gripper_palm_link") (name "forearm_link")
    (turning "wrist_roll_joint" ⟨1, 0, 0⟩ (-Scalar.pi) Scalar.pi) (shift 0.35 0 0)
    (.shape (.box ⟨0.1, 0.1, 0.06⟩), .absent),
   finger "l" 0.03, finger "r" (-0.03)]

/-- The names of the links of an arm. -/
def armLinks (letter : String) : List String :=
  ["shoulder_pan_link", "upper_arm_link", "forearm_link", "gripper_palm_link", "gripper_l_finger_link",
   "gripper_r_finger_link"].map fun s => letter ++ "_" ++ s

/-- A model with one more link, as far as it is accepted. -/
def grow (m : RobotModel α) (source : LinkSource α) : RobotModel α := (m.addLink source).model

/-- The robot (`DualArmRobot`). -/
def model (name : Option String) : RobotModel α :=
  let m := (body ++ arm "r" (-1 : α) ++ arm "l" (1 : α)).foldl grow (RobotModel.empty .dualArm name)
  let groups := [("whole_body", m.linkNames), ("right_arm", armLinks "r"), ("left_arm", armLinks "l")]
  { m with groups := Table.ofList groups }

end Clearance.DualArm
