import Clearance.Proofs.Robot.StateRuns

/-!
# Links that have a pose

A state has poses for the links that its model had when the poses were computed last, and for those
that were put somewhere since. A link that joins the model afterwards has none until the joint values
are set again.

* `RobotState.Action.placed`: the links that have a pose after an action.
* `RobotState.Places`: which links have a pose, with its step `RobotState.Places.left`.
* `RobotState.Places.linkPose`: what the lookup of a link comes to.
-/

namespace Clearance.RobotState

variable {α : Type} [Scalar α] {m : RobotModel α} {s s' : RobotState α} {root : Pose α}
  {values : Table String α} {poses : Table String (Pose α)} {known : List String} {a : Action α}

/-! ## What actions leave behind -/

/-- An action that goes well leaves the state that it comes to. -/
theorem left_of_act (h : s.act m a = .ok s') : s.left m a = s' := by
  have hchange : ∀ c : Change α, c.outcome = .ok s' → c.state = s' := by
    intro c hc
    unfold Change.outcome at hc
    split at hc
    · exact Except.ok.inj hc
    · cases hc
  cases a with
  | setValues values => exact hchange _ h
  | setDefaults => exact hchange _ h
  | override link pose =>
    replace h : s.override m link pose = .ok s' := h
    rw [left, h]
    rfl
  | copy =>
    replace h : s.copy m = .ok s' := h
    rw [left, h]
    rfl

/-- An action that fails leaves the poses as they were. -/
theorem poses_left_of_error {e : Error α} (h : s.act m a = .error e) : (s.left m a).poses = s.poses := by
  cases a with
  | setValues values =>
    obtain ⟨events, e', hset⟩ | ⟨poses, events, -, hset⟩ := setValues_cases m s values
    · rw [left, hset]
    · rw [act, hset] at h
      cases h
  | setDefaults =>
    obtain ⟨values, e', hset⟩ | ⟨values, poses, -, hset⟩ := setDefaults_cases m s
    · rw [left, hset]
    · rw [act, hset] at h
      cases h
  | override link pose =>
    replace h : s.override m link pose = .error e := h
    rw [left, h]
    rfl
  | copy =>
    replace h : s.copy m = .error e := h
    rw [left, h]
    rfl

/-! ## Links with poses -/

/-- The links that have a pose after an action that goes well: all of the model, or one more if it
    was put somewhere. -/
def Action.placed (m : RobotModel α) (known : List String) : Action α → List String
  | .setValues _ | .setDefaults => m.linkNames
  | .override link _ => link :: known
  | .copy => known

/-- The links that have a pose after an action, whether it fails or not. -/
def placedBy (m : RobotModel α) (s : RobotState α) (known : List String) (a : Action α) : List String :=
  match s.act m a with
  | .ok _ => a.placed m known
  | .error _ => known

/-- The links in the list have poses that can be copied, and no other link has one. -/
structure Places (poses : Table String (Pose α)) (known : List String) : Prop where
  contains : ∀ link, poses.contains link = true ↔ link ∈ known
  copy : ∀ link p, poses.find? link = some p → p.copy = .ok p

/-- Poses that have just been computed are those of all links of the model. -/
theorem places_forward (hm : m.Keyed) (h : forward m root values = .ok poses) :
    Places poses m.linkNames := by
  obtain ⟨hfollows, hplaced⟩ := forward_follows hm h
  refine ⟨fun link => ⟨fun hlink => ?_, hplaced link⟩, fun link p hp => (hfollows link p hp).1⟩
  obtain ⟨p, hp⟩ := Option.isSome_iff_exists.mp hlink
  obtain ⟨-, way, hway, -⟩ := hfollows link p hp
  exact hway.mem_linkNames

theorem places_atDefaults (hm : m.Keyed) {source : PoseSource α} (h : atDefaults m source = .ok s) :
    Places s.poses m.linkNames := by
  obtain ⟨r, -, h⟩ := bind_eq_ok.mp h
  obtain ⟨values, -, h⟩ := bind_eq_ok.mp h
  obtain ⟨poses, hposes, h⟩ := bind_eq_ok.mp h
  cases h
  exact places_forward hm hposes

theorem Places.override (h : Places s.poses known) {link : String} {pose : PoseSource α}
    (hpose : pose.Checked) (hact : s.override m link pose = .ok s') : Places s'.poses (link :: known) := by
  obtain ⟨_, -, hact⟩ := bind_eq_ok.mp hact
  obtain ⟨p, hp, hact⟩ := bind_eq_ok.mp hact
  cases hact
  refine ⟨fun name => ?_, fun name q hq => ?_⟩
  · rw [Table.contains, Table.find?_set, List.mem_cons]
    by_cases heq : link = name
    · simp [heq]
    · rw [if_neg heq, ← Table.contains, h.contains, or_iff_right (Ne.symm heq)]
  · rw [Table.find?_set] at hq
    split at hq
    · cases hq
      exact hpose p hp
    · exact h.copy name q hq

/-- Whether it fails or not, an action leaves poses of the links that are said to have one. -/
theorem Places.left (hm : m.Keyed) (h : Places s.poses known) (ha : a.Checked) :
    Places (s.left m a).poses (placedBy m s known a) := by
  unfold placedBy
  cases hact : s.act m a with
  | error e =>
    rw [poses_left_of_error hact]
    exact h
  | ok s' =>
    rw [left_of_act hact]
    cases a with
    | setValues values => exact places_forward hm (forward_of_setValues hact).2
    | setDefaults => exact places_forward hm (forward_of_setDefaults hact).2
    | override link pose => exact h.override ha hact
    | copy =>
      cases eq_of_copy hact
      exact h

/-- No links get a pose but those of the model. -/
theorem mem_linkNames_of_placedBy (h : ∀ link ∈ known, link ∈ m.linkNames) :
    ∀ link ∈ placedBy m s known a, link ∈ m.linkNames := by
  intro link hlink
  unfold placedBy at hlink
  cases hact : s.act m a with
  | error e =>
    rw [hact] at hlink
    exact h link hlink
  | ok s' =>
    rw [hact] at hlink
    cases a with
    | setValues values => exact hlink
    | setDefaults => exact hlink
    | copy => exact h link hlink
    | override name pose =>
      rcases List.mem_cons.mp hlink with rfl | hlink
      · obtain ⟨_, hfound, -⟩ := bind_eq_ok.mp hact
        obtain ⟨l, hl, -⟩ := bind_eq_ok.mp hfound
        exact RobotModel.mem_linkNames_of_link hl
      · exact h link hlink

/-! ## Lookups -/

/-- What the lookup of a link comes to: the pose if there is one, and otherwise a failure, which
    names the link only if the model does not have it. -/
structure LooksUp (m : RobotModel α) (s : RobotState α) (known : List String) : Prop where
  mem : ∀ link ∈ known, link ∈ m.linkNames
  pose : ∀ link ∈ known, ∃ p, s.linkPose m link = .ok p
  unknown : ∀ link, link ∉ m.linkNames → s.linkPose m link = .error (.unknownLink m.name link)
  late : ∀ link ∈ m.linkNames, link ∉ known → s.linkPose m link = .error (.fault .key)

theorem Places.looksUp (h : Places s.poses known) (hknown : ∀ link ∈ known, link ∈ m.linkNames) :
    LooksUp m s known := by
  have hnone : ∀ link, link ∉ known → s.poses.find? link = none := fun link hlink =>
    Option.not_isSome_iff_eq_none.mp fun hsome => hlink ((h.contains link).mp hsome)
  refine ⟨hknown, fun link hlink => ?_, fun link hlink => ?_, fun link hlink hnot => ?_⟩
  · obtain ⟨p, hp⟩ := Option.isSome_iff_exists.mp ((h.contains link).mpr hlink)
    refine ⟨p, ?_⟩
    unfold linkPose
    rw [hp]
    exact h.copy link p hp
  · unfold linkPose
    rw [hnone link fun hmem => hlink (hknown link hmem), RobotModel.link_of_not_mem hlink]
  · obtain ⟨l, hl⟩ := RobotModel.link_of_mem hlink
    unfold linkPose
    rw [hnone link hnot, hl]

end Clearance.RobotState
