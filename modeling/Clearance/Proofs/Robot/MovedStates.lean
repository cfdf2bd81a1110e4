import Clearance.Proofs.Geometry.Moving
import Clearance.Proofs.Robot.StateRuns

/-!
# States of a robot in a moved world

The root of a robot is put where a rigid motion takes it, and so is every link that is put somewhere
by hand. Then all links stand where the motion takes them: the joints turn and shift the links
relative to each other, and joint values know nothing of the world.

* `PoseSource.moved`, `RobotState.moved`, `RobotState.Action.moved`: what a motion does to poses
  that are given, to states and to what is done with them.
* `RobotState.forward_moved`: moved forward kinematics.
* `RobotState.act_moved`, `RobotState.run_moved_iff`: one action, and whole runs.
* `RobotState.linkPose_moved`: where the links stand.
-/

namespace Clearance

variable {g : Pose ℝ}

/-! ## Poses that are given -/

namespace PoseSource

/-- A source of the pose that a motion takes a pose to. -/
noncomputable def moved (source : PoseSource ℝ) (g : Pose ℝ) : PoseSource ℝ :=
  .read (source.toPose.map (·.moved g))

theorem toPose_moved (source : PoseSource ℝ) : (source.moved g).toPose = source.toPose.map (·.moved g) := rfl

/-- The motion is composed with the pose that is given. -/
theorem toPose_moved_eq_transform (hg : g.IsMotion) {source : PoseSource ℝ} (h : source.Checked) :
    (source.moved g).toPose = source.toPose >>= g.transform := by
  rw [toPose_moved]
  cases hp : source.toPose with
  | error e => rfl
  | ok p => exact (congrArg (Except.map _) (h p hp).symm).trans (Pose.transform_eq hg p).symm

theorem checked_moved_iff (hg : g.IsMotion) (source : PoseSource ℝ) : (source.moved g).Checked ↔ source.Checked := by
  constructor
  · intro h p hp
    have hcopy := h (p.moved g) (by rw [toPose_moved, hp]; rfl)
    rw [Pose.copy_moved hg] at hcopy
    obtain ⟨q, hq, -⟩ := map_eq_ok.mp hcopy
    rw [hq, Pose.eq_of_copy hq]
  · intro h q hq
    obtain ⟨p, hp, rfl⟩ := map_eq_ok.mp hq
    rw [Pose.copy_moved hg, h p hp]
    rfl

end PoseSource

/-- The poses of links where a motion takes them. -/
noncomputable def LinkPoses.moved (poses : LinkPoses ℝ) (g : Pose ℝ) : LinkPoses ℝ :=
  fun link => (poses link).map (·.moved g)

namespace RobotState

/-- The poses of a table where a motion takes them. -/
noncomputable def movedPoses (poses : Table String (Pose ℝ)) (g : Pose ℝ) : Table String (Pose ℝ) :=
  poses.mapValues fun _ p => p.moved g

/-- A state with the root and all links where a motion takes them. -/
noncomputable def moved (s : RobotState ℝ) (g : Pose ℝ) : RobotState ℝ :=
  ⟨s.root.moved g, s.values, movedPoses s.poses g⟩

variable {m : RobotModel ℝ}

/-! ## Forward kinematics -/

theorem find?_movedPoses (poses : Table String (Pose ℝ)) (name : String) :
    (movedPoses poses g).find? name = (poses.find? name).map (·.moved g) := Table.find?_mapValues ..

theorem movedPoses_set (poses : Table String (Pose ℝ)) (name : String) (p : Pose ℝ) :
    movedPoses (poses.set name p) g = (movedPoses poses g).set name (p.moved g) := Table.mapValues_set ..

/-- One link is placed below its moved parent. -/
theorem placeLink_moved (hg : g.IsMotion) (root : Pose ℝ) (values : Table String ℝ)
    (poses : Table String (Pose ℝ)) (l : Link ℝ) :
    placeLink m (root.moved g) values (movedPoses poses g) l =
      (placeLink m root values poses l).map (·.moved g) := by
  unfold placeLink
  cases l.parent with
  | none => exact Pose.copy_moved hg root
  | some parent =>
    cases l.joint with
    | none => rfl
    | some name =>
      refine bind_eq_map fun j => ?_
      rw [find?_movedPoses]
      cases poses.find? parent with
      | none => rfl
      | some above => exact bind_eq_map fun child => Pose.transform_moved hg above child

/-- The poses that follow from joint values, from a moved root on. -/
theorem forward_moved (hg : g.IsMotion) (root : Pose ℝ) (values : Table String ℝ) :
    forward m (root.moved g) values = (forward m root values).map (movedPoses · g) := by
  refine foldlM_eq_map (k := (movedPoses · g)) (fun poses l => ?_) m.links.values Table.empty
  rw [placeLink_moved hg]
  refine map_bind_eq_map fun p => ?_
  rw [← movedPoses_set]
  rfl

/-! ## Actions -/

/-- An action in the moved world: what is put somewhere is put where the motion takes it. -/
noncomputable def Action.moved (g : Pose ℝ) : Action ℝ → Action ℝ
  | .override link pose => .override link (pose.moved g)
  | a => a

/-- A change in the moved world. -/
noncomputable def Change.moved (c : Change ℝ) (g : Pose ℝ) : Change ℝ := { c with state := c.state.moved g }

theorem outcome_moved (c : Change ℝ) : (c.moved g).outcome = c.outcome.map (·.moved g) := by
  obtain ⟨s, events, _ | e⟩ := c <;> rfl

theorem atDefaults_moved (hg : g.IsMotion) (m : RobotModel ℝ) (root : PoseSource ℝ) :
    atDefaults m (root.moved g) = (atDefaults m root).map (·.moved g) := by
  unfold atDefaults
  rw [PoseSource.toPose_moved]
  refine map_bind_eq_map fun r => bind_eq_map fun values => ?_
  rw [forward_moved hg]
  exact map_bind_eq_map fun poses => rfl

theorem refresh_moved (hg : g.IsMotion) (m : RobotModel ℝ) (s : RobotState ℝ) (events : List (Event ℝ)) :
    refresh m (s.moved g) events = (refresh m s events).moved g := by
  unfold refresh
  rw [show forward m (s.moved g).root (s.moved g).values = _ from forward_moved hg s.root s.values]
  cases forward m s.root s.values <;> rfl

/-- Values are written without a look at the poses. -/
theorem writeValues_moved (values : List (String × Given ℝ)) (s : RobotState ℝ) (events : List (Event ℝ)) :
    writeValues m (s.moved g) values events = (writeValues m s values events).moved g := by
  induction values generalizing s events with
  | nil => rfl
  | cons e rest ih =>
    obtain ⟨name, v⟩ := e
    rw [writeValues, writeValues]
    cases clampedValue m name v with
    | error e => rfl
    | ok written => exact ih { s with values := s.values.set name written.1 } _

theorem setValues_moved (hg : g.IsMotion) (s : RobotState ℝ) (values : List (String × Given ℝ)) :
    (s.moved g).setValues m values = (s.setValues m values).moved g := by
  unfold setValues
  rw [writeValues_moved]
  obtain ⟨s', events, _ | e⟩ := writeValues m s (Table.ofList values).entries []
  · exact refresh_moved hg m s' events
  · rfl

theorem setDefaults_moved (hg : g.IsMotion) (s : RobotState ℝ) :
    (s.moved g).setDefaults m = (s.setDefaults m).moved g := by
  unfold setDefaults
  cases m.defaultValues with
  | error e => rfl
  | ok values => exact refresh_moved hg m { s with values := values } []

theorem override_moved (s : RobotState ℝ) (link : String) (pose : PoseSource ℝ) :
    (s.moved g).override m link (pose.moved g) = (s.override m link pose).map (·.moved g) := by
  unfold override
  rw [PoseSource.toPose_moved]
  refine bind_eq_map fun l => map_bind_eq_map fun p => ?_
  show _ = Except.ok (RobotState.mk (s.root.moved g) s.values (movedPoses (s.poses.set link p) g))
  rw [movedPoses_set]
  rfl

theorem copy_moved (hg : g.IsMotion) (s : RobotState ℝ) :
    (s.moved g).copy m = (s.copy m).map (·.moved g) := by
  have hroot : atDefaults m (.pose (s.moved g).root) = (atDefaults m (.pose s.root)).map (·.moved g) := by
    rw [← atDefaults_moved hg]
    have hsource : (PoseSource.pose (s.root.moved g)).toPose = ((PoseSource.pose s.root).moved g).toPose :=
      Pose.copy_moved hg s.root
    exact congrArg (· >>= _) hsource
  have hposes : (s.moved g).poses.entries.mapM
        (fun ((name, p) : String × Pose ℝ) => (p.copy).map fun q => (name, q)) =
      (s.poses.entries.mapM fun ((name, p) : String × Pose ℝ) => (p.copy).map fun q => (name, q)).map
        (List.map fun e : String × Pose ℝ => (e.1, e.2.moved g)) := by
    show (s.poses.entries.map fun e => (e.1, e.2.moved g)).mapM _ = _
    rw [List.mapM_map]
    refine mapM_map_results (fun (name, p) => ?_) _
    show (p.moved g).copy.map _ = (p.copy.map _).map _
    rw [Pose.copy_moved hg]
    cases p.copy <;> rfl
  unfold copy
  rw [hroot, hposes]
  refine map_bind_eq_map fun fresh => map_bind_eq_map fun poses => ?_
  show _ = Except.ok (RobotState.mk (fresh.root.moved g) s.values (movedPoses (Table.ofList poses) g))
  rw [movedPoses, Table.mapValues_ofList]
  rfl

/-- An action in the moved world comes to the moved state, or fails the same way. -/
theorem act_moved (hg : g.IsMotion) (s : RobotState ℝ) (a : Action ℝ) :
    (s.moved g).act m (a.moved g) = (s.act m a).map (·.moved g) := by
  cases a with
  | setValues values => exact (congrArg _ (setValues_moved hg s values)).trans (outcome_moved _)
  | setDefaults => exact (congrArg _ (setDefaults_moved hg s)).trans (outcome_moved _)
  | override link pose => exact override_moved s link pose
  | copy => exact copy_moved hg s

theorem checked_action_moved_iff (hg : g.IsMotion) (a : Action ℝ) : (a.moved g).Checked ↔ a.Checked := by
  cases a with
  | override link pose => exact PoseSource.checked_moved_iff hg pose
  | setValues | setDefaults | copy => exact Iff.rfl

/-- The states that come about in the moved world are the moved states. -/
theorem run_moved_iff (hg : g.IsMotion) {root : PoseSource ℝ} {past : List (Action ℝ)} {t : RobotState ℝ} :
    Run m (root.moved g) (past.map (·.moved g)) t ↔ ∃ s, Run m root past s ∧ t = s.moved g := by
  induction past generalizing t with
  | nil =>
    constructor
    · intro h
      cases h with
      | start h =>
        rw [atDefaults_moved hg] at h
        obtain ⟨s, hs, rfl⟩ := map_eq_ok.mp h
        exact ⟨s, .start hs, rfl⟩
    · rintro ⟨s, h, rfl⟩
      cases h with
      | start hs => exact .start ((atDefaults_moved hg m root).trans (map_eq_ok.mpr ⟨s, hs, rfl⟩))
  | cons a past ih =>
    constructor
    · intro h
      cases h with
      | act _ hrun hchecked hact =>
        obtain ⟨s, hs, rfl⟩ := ih.mp hrun
        rw [act_moved hg] at hact
        obtain ⟨s', hs', rfl⟩ := map_eq_ok.mp hact
        exact ⟨s', .act a hs ((checked_action_moved_iff hg a).mp hchecked) hs', rfl⟩
    · rintro ⟨s', h, rfl⟩
      cases h with
      | act _ hrun hchecked hact =>
        refine .act _ (ih.mpr ⟨_, hrun, rfl⟩) ((checked_action_moved_iff hg a).mpr hchecked) ?_
        rw [act_moved hg]
        exact map_eq_ok.mpr ⟨s', hact, rfl⟩

/-! ## Where the links stand -/

theorem linkPose_moved (hg : g.IsMotion) (s : RobotState ℝ) :
    (s.moved g).linkPose m = LinkPoses.moved (s.linkPose m) g := by
  funext link
  have hfound : (s.moved g).poses.find? link = _ := find?_movedPoses s.poses link
  cases hp : s.poses.find? link with
  | some p =>
    simp only [linkPose, LinkPoses.moved, hfound, hp, Option.map_some]
    exact Pose.copy_moved hg p
  | none =>
    simp only [linkPose, LinkPoses.moved, hfound, hp, Option.map_none]
    cases m.link link <;> rfl

end RobotState

end Clearance
