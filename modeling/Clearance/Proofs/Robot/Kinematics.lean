import Clearance.Proofs.Geometry.Rigid
import Clearance.Proofs.Robot.Growth
import Clearance.Robot.State

/-!
# Poses that follow from joint values

The poses of all links are computed in one pass over the links as they were added. Each of them is
the pose of the root composed with the poses of the joints on the way down to the link, whichever
links were added in between.

* `RobotState.along`: the pose at the end of a way down from a pose.
* `RobotState.toWorld_along`: in exact arithmetic it takes points to the world joint by joint.
* `RobotState.Follows`, `RobotState.forward_follows`: what the pass computes.
-/

namespace Clearance

/-! ## Ways down -/

namespace RobotState

variable {α : Type} [Scalar α]

/-- The pose of the link below a joint of a name, seen from the link above it. A joint without a
    value counts as zero. -/
def childOf (values : Table String α) (joint : String × Joint α) : Except (Error α) (Pose α) :=
  joint.2.childPose (.real ((values.find? joint.1).getD 0))

/-- The pose of the link below a joint, from that of the link above it. -/
def below (values : Table String α) (above : Pose α) (joint : String × Joint α) :
    Except (Error α) (Pose α) := do
  above.transform (← childOf values joint)

/-- The pose of the link at the end of a way down, from that of the link at its beginning. -/
def along (values : Table String α) (root : Pose α) (way : List (String × Joint α)) :
    Except (Error α) (Pose α) :=
  way.foldlM (below values) root

theorem along_concat {values : Table String α} {root above p : Pose α}
    {way : List (String × Joint α)} {joint : String × Joint α}
    (hway : along values root way = .ok above) (hbelow : below values above joint = .ok p) :
    along values root (way ++ [joint]) = .ok p := by
  unfold along at hway ⊢
  rw [List.foldlM_append]
  exact bind_eq_ok.mpr ⟨above, hway, bind_eq_ok.mpr ⟨p, hbelow, rfl⟩⟩

end RobotState

/-- A composed pose takes points to the world as its parts do one after the other. -/
theorem Pose.toWorld_transform {p q r : Pose ℝ} (h : p.transform q = .ok r) (v : Vec3 ℝ) :
    r.toWorld v = p.toWorld (q.toWorld v) := by
  obtain ⟨-, -, rfl⟩ := Pose.make_eq_ok.mp h
  simp only [toWorld, toMotion, Motion.apply, Mat3.mulVec, Mat3.mul, Mat3.vecMul, Vec3.dot,
    Vec3.add_def, Vec3.mk.injEq]
  refine ⟨?_, ?_, ?_⟩ <;> ring

/-- The pose at the end of a way down takes points to the world joint by joint. -/
theorem RobotState.toWorld_along {values : Table String ℝ} {root p : Pose ℝ}
    {way : List (String × Joint ℝ)} (h : along values root way = .ok p) :
    ∃ children : List (Pose ℝ),
      List.Forall₂ (fun joint child => childOf values joint = .ok child) way children ∧
      ∀ v, p.toWorld v = root.toWorld (children.foldr Pose.toWorld v) := by
  induction way generalizing root with
  | nil =>
    cases h
    exact ⟨[], .nil, fun _ => rfl⟩
  | cons joint rest ih =>
    obtain ⟨above, habove, h⟩ := bind_eq_ok.mp h
    obtain ⟨child, hchild, htransform⟩ := bind_eq_ok.mp habove
    obtain ⟨children, hchildren, hworld⟩ := ih h
    refine ⟨child :: children, .cons hchild hchildren, fun v => ?_⟩
    rw [hworld, List.foldr_cons, Pose.toWorld_transform htransform]

namespace RobotState

variable {α : Type} [Scalar α] {m : RobotModel α} {root : Pose α} {values : Table String α}

/-! ## The pass over the links -/

/-- Every pose that is known is that at the end of the way down to its link, and can be copied. -/
def Follows (m : RobotModel α) (root : Pose α) (values : Table String α)
    (poses : Table String (Pose α)) : Prop :=
  ∀ name p, poses.find? name = some p →
    p.copy = .ok p ∧ ∃ way, m.Path name way ∧ along values root way = .ok p

/-- One link is placed below its parent. -/
theorem placeLink_follows {poses : Table String (Pose α)} (hposes : Follows m root values poses)
    {l : Link α} (hl : m.links.find? l.name = some l) {p : Pose α}
    (h : placeLink m root values poses l = .ok p) :
    p.copy = .ok p ∧ ∃ way, m.Path l.name way ∧ along values root way = .ok p := by
  unfold placeLink at h
  cases hparent : l.parent with
  | none =>
    rw [hparent] at h
    cases Pose.eq_of_copy h
    exact ⟨h, [], .root hl hparent, rfl⟩
  | some parent =>
    cases hjoint : l.joint with
    | none =>
      rw [hparent, hjoint] at h
      cases h
    | some joint =>
      rw [hparent, hjoint] at h
      obtain ⟨j, hj, h⟩ := bind_eq_ok.mp h
      cases habove : poses.find? parent with
      | none =>
        rw [habove] at h
        cases h
      | some above =>
        rw [habove] at h
        obtain ⟨-, way, hpath, hway⟩ := hposes parent above habove
        obtain ⟨child, -, htransform⟩ := bind_eq_ok.mp h
        exact ⟨Pose.copy_of_make htransform, way ++ [(joint, j)],
          .down hl hparent hjoint (RobotModel.joint_eq_ok.mp hj) hpath, along_concat hway h⟩

/-- A pass over some of the links places them and keeps what was placed. -/
theorem foldlM_placeLink {ls : List (Link α)} (hls : ∀ l ∈ ls, m.links.find? l.name = some l)
    {poses poses' : Table String (Pose α)} (hposes : Follows m root values poses)
    (h : ls.foldlM (fun poses l => do return poses.set l.name (← placeLink m root values poses l))
      poses = .ok poses') :
    Follows m root values poses' ∧
      ∀ name, poses.contains name = true ∨ name ∈ ls.map Link.name → poses'.contains name = true := by
  induction ls generalizing poses with
  | nil =>
    cases h
    exact ⟨hposes, fun name hname => hname.resolve_right List.not_mem_nil⟩
  | cons l rest ih =>
    obtain ⟨placed, hplaced, h⟩ := bind_eq_ok.mp h
    obtain ⟨p, hp, hset⟩ := bind_eq_ok.mp hplaced
    cases hset
    have hfollows : Follows m root values (poses.set l.name p) := by
      intro name q hq
      rw [Table.find?_set] at hq
      split at hq
      · rename_i hname
        cases hq
        exact hname ▸ placeLink_follows hposes (hls l List.mem_cons_self) hp
      · exact hposes name q hq
    obtain ⟨hfollows', hnames⟩ := ih (fun l hl => hls l (List.mem_cons_of_mem _ hl)) hfollows h
    refine ⟨hfollows', fun name hname => hnames name ?_⟩
    rw [Table.contains, Table.find?_set]
    split
    · exact Or.inl rfl
    · rename_i hne
      rcases hname with hname | hname
      · exact Or.inl hname
      · exact Or.inr ((List.mem_cons.mp hname).resolve_left fun h => hne h.symm)

/-- The pass places every link at the end of the way down to it. -/
theorem forward_follows (hm : m.Keyed) {poses : Table String (Pose α)}
    (h : forward m root values = .ok poses) :
    Follows m root values poses ∧ ∀ name ∈ m.linkNames, poses.contains name = true := by
  obtain ⟨hfollows, hnames⟩ := foldlM_placeLink (fun _ => hm.find?_name) (fun _ _ h => by cases h) h
  refine ⟨hfollows, fun name hname => hnames name (Or.inr ?_)⟩
  rwa [hm.map_name_values]

end RobotState

end Clearance
