import Clearance.Proofs.Robot.JointUpdates
import Clearance.Proofs.Robot.Kinematics
import Clearance.Proofs.Outcomes
import Clearance.Input.PoseReading

/-!
# Runs of robot states

A state is made at the default values; then joint values are set, poses of single links are
overridden, and copies take the place of the state, in any order. Where a link stands is told by
what was done, the latest first: where it was put last, if the values have not been set since, or
else where the joint values put it.

* `PoseSource.Checked`: the sources whose poses can be copied, as all that are read.
* `RobotState.Action`, `RobotState.act`: what can be done with a state, if it does not fail.
* `RobotState.left`: what an action leaves behind, whether it fails or not.
* `RobotState.Run`: the states that come about, with what was done.
* `RobotState.standing`: the override that counts.
* `RobotState.Stands`, `RobotState.stands_of_run`: the invariant.
* `RobotState.linkPose_of_run`: where the links stand.
-/

namespace Clearance

variable {α : Type} [Scalar α]

/-- The pose that a source stands for can be copied, as all can that are read. -/
def PoseSource.Checked (source : PoseSource α) : Prop := ∀ p, source.toPose = .ok p → p.copy = .ok p

/-- A pose is checked when it is taken for a source. -/
theorem PoseSource.checked_pose (p : Pose α) : (PoseSource.pose p).Checked := by
  intro q hq
  cases Pose.eq_of_copy hq
  exact hq

theorem PoseSource.checked_absent : (PoseSource.absent : PoseSource ℝ).Checked := by
  intro q hq
  cases hq
  exact Pose.toPose_origin

/-- What is read from a value is checked when it is read. -/
theorem PoseSource.checked_poseSource {v : Value} (hv : v ≠ .null) : (Read.poseSource v).Checked := by
  intro p hp
  cases v with
  | null => exact absurd rfl hv
  | _ => exact Read.copy_of_homogeneousPose hp

namespace RobotState

/-! ## What can be done -/

/-- What can be done with a state. -/
inductive Action (α : Type) where
  | setValues (values : List (String × Given α))
  | setDefaults
  | override (link : String) (pose : PoseSource α)
  /-- Goes on with a copy of the state. -/
  | copy

omit [Scalar α] in
/-- The state after a change that did not fail. -/
def Change.outcome (c : Change α) : Except (Error α) (RobotState α) :=
  match c.failure with
  | none => .ok c.state
  | some e => .error e

/-- The state after an action that does not fail. -/
def act (m : RobotModel α) (s : RobotState α) : Action α → Except (Error α) (RobotState α)
  | .setValues values => (s.setValues m values).outcome
  | .setDefaults => (s.setDefaults m).outcome
  | .override link pose => s.override m link pose
  | .copy => s.copy m

/-- The state that an action leaves behind, whether it fails or not. -/
def left (m : RobotModel α) (s : RobotState α) : Action α → RobotState α
  | .setValues values => (s.setValues m values).state
  | .setDefaults => (s.setDefaults m).state
  | .override link pose => (s.override m link pose).toOption.getD s
  | .copy => (s.copy m).toOption.getD s

/-- The poses that an action is given can be copied. -/
def Action.Checked : Action α → Prop
  | .override _ pose => pose.Checked
  | _ => True

/-- The states that come about from a new one, with the actions that led there, the latest first. -/
inductive Run (m : RobotModel α) (root : PoseSource α) : List (Action α) → RobotState α → Prop where
  | start {s : RobotState α} : atDefaults m root = .ok s → Run m root [] s
  | act {past : List (Action α)} {s s' : RobotState α} (a : Action α) :
      Run m root past s → a.Checked → s.act m a = .ok s' → Run m root (a :: past) s'

omit [Scalar α] in
/-- The last override of a link since joint values were set. -/
def standing (link : String) : List (Action α) → Option (PoseSource α)
  | .override link' pose :: past => if link' = link then some pose else standing link past
  | .copy :: past => standing link past
  | _ => none

/-! ## The invariant -/

variable {m : RobotModel α} {root : PoseSource α} {past : List (Action α)} {s s' : RobotState α}

/-- A link stands where it was put, or where the joint values put it. -/
def StandsAt (m : RobotModel α) (s : RobotState α) (link : String) (p : Pose α) :
    Option (PoseSource α) → Prop
  | some pose => pose.toPose = .ok p
  | none => ∃ way, m.Path link way ∧ along s.values s.root way = .ok p

/-- The root is where it was put, and every link stands as the past tells. -/
structure Stands (m : RobotModel α) (root : PoseSource α) (past : List (Action α))
    (s : RobotState α) : Prop where
  root : root.toPose = .ok s.root
  reached : ∀ link ∈ m.linkNames, ∃ way, m.Path link way
  poses : ∀ link ∈ m.linkNames, ∃ p, s.poses.find? link = some p ∧ p.copy = .ok p ∧
    StandsAt m s link p (standing link past)

/-- Where the poses have just been computed, every link stands where the values put it. -/
theorem stands_of_forward (hm : m.Keyed) (hroot : root.toPose = .ok s.root)
    (hposes : forward m s.root s.values = .ok s.poses) (hpast : ∀ link, standing link past = none) :
    Stands m root past s := by
  obtain ⟨hfollows, hplaced⟩ := forward_follows hm hposes
  have hall : ∀ link ∈ m.linkNames, ∃ p, s.poses.find? link = some p ∧ p.copy = .ok p ∧
      ∃ way, m.Path link way ∧ along s.values s.root way = .ok p := by
    intro link hlink
    obtain ⟨p, hp⟩ := Option.isSome_iff_exists.mp (hplaced link hlink)
    exact ⟨p, hp, hfollows link p hp⟩
  refine ⟨hroot, fun link hlink => ?_, fun link hlink => ?_⟩
  · obtain ⟨_, -, -, way, hpath, -⟩ := hall link hlink
    exact ⟨way, hpath⟩
  · rw [hpast]
    exact hall link hlink

theorem stands_start (hm : m.Keyed) (h : atDefaults m root = .ok s) : Stands m root [] s := by
  obtain ⟨r, hroot, h⟩ := bind_eq_ok.mp h
  obtain ⟨values, -, h⟩ := bind_eq_ok.mp h
  obtain ⟨poses, hposes, h⟩ := bind_eq_ok.mp h
  cases h
  exact stands_of_forward hm hroot hposes fun _ => rfl

/-- A change of values that goes well leaves the root, and the poses follow from the values. -/
theorem forward_of_setValues {values : List (String × Given α)}
    (h : (s.setValues m values).outcome = .ok s') :
    s'.root = s.root ∧ forward m s'.root s'.values = .ok s'.poses := by
  obtain ⟨events, e, hset⟩ | ⟨poses, events, hposes, hset⟩ := setValues_cases m s values
  · rw [hset] at h
    cases h
  · rw [hset] at h
    cases h
    exact ⟨rfl, hposes⟩

/-- Setting all values to their defaults fails without touching the poses, or they follow. -/
theorem setDefaults_cases (m : RobotModel α) (s : RobotState α) :
    (∃ values e, s.setDefaults m = ⟨{ s with values := values }, [], some e⟩) ∨
      ∃ values poses, forward m s.root values = .ok poses ∧
        s.setDefaults m = ⟨{ s with values := values, poses := poses }, [], none⟩ := by
  unfold setDefaults
  cases m.defaultValues with
  | error e => exact .inl ⟨s.values, e, rfl⟩
  | ok values =>
    simp only [refresh]
    cases hposes : forward m s.root values with
    | error e => exact .inl ⟨values, e, rfl⟩
    | ok poses => exact .inr ⟨values, poses, hposes, rfl⟩

theorem forward_of_setDefaults (h : (s.setDefaults m).outcome = .ok s') :
    s'.root = s.root ∧ forward m s'.root s'.values = .ok s'.poses := by
  obtain ⟨values, e, hset⟩ | ⟨values, poses, hposes, hset⟩ := setDefaults_cases m s
  · rw [hset] at h
    cases h
  · rw [hset] at h
    cases h
    exact ⟨rfl, hposes⟩

/-- After the values were set, all links stand where the values put them. -/
theorem Stands.setValues (hm : m.Keyed) (h : Stands m root past s)
    {values : List (String × Given α)} (hact : (s.setValues m values).outcome = .ok s') :
    Stands m root (.setValues values :: past) s' := by
  obtain ⟨hroot, hposes⟩ := forward_of_setValues hact
  exact stands_of_forward hm (hroot ▸ h.root) hposes fun _ => rfl

theorem Stands.setDefaults (hm : m.Keyed) (h : Stands m root past s)
    (hact : (s.setDefaults m).outcome = .ok s') : Stands m root (.setDefaults :: past) s' := by
  obtain ⟨hroot, hposes⟩ := forward_of_setDefaults hact
  exact stands_of_forward hm (hroot ▸ h.root) hposes fun _ => rfl

/-- After an override one link stands where it was put, and all others where they stood. -/
theorem Stands.override (h : Stands m root past s) {link : String} {pose : PoseSource α}
    (hpose : pose.Checked) (hact : s.override m link pose = .ok s') :
    Stands m root (.override link pose :: past) s' := by
  obtain ⟨_, -, hact⟩ := bind_eq_ok.mp hact
  obtain ⟨p, hp, hact⟩ := bind_eq_ok.mp hact
  cases hact
  refine ⟨h.root, h.reached, fun link' hlink' => ?_⟩
  rw [standing, Table.find?_set]
  by_cases heq : link = link'
  · rw [if_pos heq, if_pos heq]
    exact ⟨p, rfl, hpose p hp, hp⟩
  · rw [if_neg heq, if_neg heq]
    exact h.poses link' hlink'

/-- A copy has the same root, values and poses. -/
theorem eq_of_copy (h : s.copy m = .ok s') : s' = s := by
  obtain ⟨fresh, hfresh, h⟩ := bind_eq_ok.mp h
  obtain ⟨poses, hposes, h⟩ := bind_eq_ok.mp h
  obtain ⟨root, hroot, hfresh⟩ := bind_eq_ok.mp hfresh
  obtain ⟨_, -, hfresh⟩ := bind_eq_ok.mp hfresh
  obtain ⟨_, -, hfresh⟩ := bind_eq_ok.mp hfresh
  cases hfresh
  cases h
  have hsame : poses = s.poses.entries := by
    refine mapM_eq_self (fun e e' he => ?_) hposes
    obtain ⟨q, hq, rfl⟩ := map_eq_ok.mp he
    rw [Pose.eq_of_copy hq]
  rw [hsame, Table.ofList_entries, Pose.eq_of_copy hroot]

/-- What was done tells where the links stand. -/
theorem stands_of_run (hm : m.Keyed) (h : Run m root past s) : Stands m root past s := by
  induction h with
  | start h => exact stands_start hm h
  | act a _ hchecked hact ih =>
    cases a with
    | setValues values => exact ih.setValues hm hact
    | setDefaults => exact ih.setDefaults hm hact
    | override link pose => exact ih.override hchecked hact
    | copy =>
      rw [eq_of_copy hact]
      exact ⟨ih.root, ih.reached, ih.poses⟩

/-! ## Where the links stand -/

/-- Whatever was done, a link stands where it was put last since joint values were set. If it was
    not put anywhere, it stands at the end of the one way down to it from where the root was put,
    each joint on the way moved by its present value. -/
theorem linkPose_of_run (hm : m.Grown) (h : Run m root past s) (link : String)
    (hlink : link ∈ m.linkNames) :
    ∃ way p, (m.Path link way ∧ ∀ way', m.Path link way' → way' = way) ∧
      s.linkPose m link = .ok p ∧
      match standing link past with
      | some pose => pose.toPose = .ok p
      | none => ∃ r, root.toPose = .ok r ∧ along s.values r way = .ok p := by
  have hs := stands_of_run hm.keyed h
  obtain ⟨way, hway⟩ := hs.reached link hlink
  obtain ⟨p, hp, hcopy, hstands⟩ := hs.poses link hlink
  have hpose : s.linkPose m link = .ok p := by
    unfold linkPose
    rw [hp]
    exact hcopy
  refine ⟨way, p, ⟨hway, fun way' h' => h'.unique hway⟩, hpose, ?_⟩
  cases hstanding : standing link past with
  | some pose =>
    rw [hstanding] at hstands
    exact hstands
  | none =>
    rw [hstanding] at hstands
    obtain ⟨way', hway', halong⟩ := hstands
    exact ⟨s.root, hs.root, hway.unique hway' ▸ halong⟩

/-- The slider is lifted, and then its base is put at the origin once more. -/
theorem linkPose_of_run_slider :
    let past : List (Action ℝ) := [.override "base" (.pose .origin), .setValues [("lift", .real 1)]]
    ∃ s, Run slider .absent past s ∧ "slider" ∈ slider.linkNames ∧
      ∃ way p, (slider.Path "slider" way ∧ ∀ way', slider.Path "slider" way' → way' = way) ∧
        s.linkPose slider "slider" = .ok p ∧
        match standing "slider" past with
        | some pose => pose.toPose = .ok p
        | none => ∃ r, PoseSource.absent.toPose = .ok r ∧ along s.values r way = .ok p := by
  intro past
  obtain ⟨poses, hstart⟩ := atDefaults_slider
  let s₀ : RobotState ℝ := ⟨.origin, Table.empty.set "lift" 0, poses⟩
  have hwritten : writeValues slider s₀ (Table.ofList [("lift", .real 1)]).entries [] =
      ⟨{ s₀ with values := s₀.values.set "lift" 1 }, [], none⟩ := by
    rw [show (Table.ofList [("lift", Given.real (1 : ℝ))]).entries = [("lift", .real 1)] from rfl,
      writeValues, clampedValue_lift]
    rfl
  obtain ⟨poses₁, hforward⟩ := forward_slider (s₀.values.set "lift" 1)
  let s₁ : RobotState ℝ := ⟨.origin, s₀.values.set "lift" 1, poses₁⟩
  have hset : (setValues slider s₀ [("lift", .real 1)]).outcome = .ok s₁ := by
    unfold setValues
    rw [hwritten]
    simp only [refresh, show s₀.root = .origin from rfl, hforward]
    rfl
  have hrun : Run slider .absent past { s₁ with poses := s₁.poses.set "base" .origin } := by
    refine .act _ (.act _ (.start hstart) trivial hset) (PoseSource.checked_pose _) ?_
    exact bind_eq_ok.mpr ⟨⟨⟩, rfl, bind_eq_ok.mpr ⟨_, Pose.toPose_origin, rfl⟩⟩
  have hlink : "slider" ∈ slider.linkNames := by
    show "slider" ∈ ["base", "slider"]
    simp
  exact ⟨_, hrun, hlink, linkPose_of_run grown_slider hrun "slider" hlink⟩

end RobotState

end Clearance
