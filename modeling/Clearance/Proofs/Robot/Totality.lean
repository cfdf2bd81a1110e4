import Clearance.Proofs.Geometry.Turning
import Clearance.Proofs.Robot.Ancestry
import Clearance.Proofs.Robot.JointValues

/-!
# When the links of a robot can be placed

Every pose that is composed on the way down to a link is checked again, and the determinants of the
rotations multiply. Turning about an axis has determinant one, so whether the links can be placed
depends on where the root stands and on the origins of the joints, but not on the joint values.

* `Joint.IsAccepted`: the joints that can be made and added.
* `RobotState.exists_forward_iff`: when the links can be placed.
* `RobotState.exists_state_iff`: when there is a state, and that its joint values can be set.
-/

namespace Clearance

/-! ## Joints -/

namespace Joint

variable {j : Joint ℝ}

/-- A joint that is fixed, turns about an axis or shifts, with an origin that was checked and numbers
    for limits. -/
structure IsAccepted (j : Joint ℝ) : Prop where
  kind : j.kind ≠ .unspecified
  axis : ∀ axis, j.kind = .rotational axis → axis ≠ ⟨0, 0, 0⟩
  origin : j.origin.copy = .ok j.origin
  least : ∃ lo, j.least.compare? = .ok lo
  greatest : ∃ hi, j.greatest.compare? = .ok hi

/-- At every value the child can be placed, and its rotation has the determinant of the origin's. -/
theorem IsAccepted.exists_childPose (hj : j.IsAccepted) (x : ℝ) :
    ∃ p, j.childPose (.real x) = .ok p ∧ p.rotation.det = j.origin.rotation.det := by
  obtain ⟨horigin, -⟩ := Pose.make_eq_ok_iff.mp hj.origin
  unfold childPose
  cases hkind : j.kind with
  | fixed => exact ⟨j.origin, hj.origin, rfl⟩
  | unspecified => exact absurd hkind hj.kind
  | rotational axis =>
    have hdet : (j.origin.rotation.mul (Rotation.aboutAxis x axis)).det = j.origin.rotation.det := by
      rw [Mat3.det_mul, Rotation.det_aboutAxis (hj.axis axis hkind), mul_one]
    exact ⟨_, bind_eq_ok.mpr ⟨x, rfl, Pose.make_eq_ok_iff.mpr ⟨hdet ▸ horigin, rfl⟩⟩, hdet⟩
  | linear axis => exact ⟨_, bind_eq_ok.mpr ⟨x, rfl, Pose.make_eq_ok_iff.mpr ⟨horigin, rfl⟩⟩, rfl⟩

theorem IsAccepted.exists_defaultValue (hj : j.IsAccepted) : ∃ x, j.defaultValue = .ok x := by
  obtain ⟨lo, hlo⟩ := hj.least
  obtain ⟨hi, hhi⟩ := hj.greatest
  exact ⟨_, bind_eq_ok.mpr ⟨lo, hlo, bind_eq_ok.mpr ⟨hi, hhi, rfl⟩⟩⟩

theorem IsAccepted.exists_degrees (hj : j.IsAccepted) : ∃ n, j.degrees = .ok n := by
  unfold degrees
  cases hkind : j.kind with
  | fixed => exact ⟨0, rfl⟩
  | unspecified => exact absurd hkind hj.kind
  | rotational axis => exact ⟨1, rfl⟩
  | linear axis => exact ⟨1, rfl⟩

/-- Every number can be moved within the limits. -/
theorem IsAccepted.exists_clamp (hj : j.IsAccepted) (y : ℝ) :
    ∃ kept event x, j.clamp (.real y) = .ok (kept, event) ∧ kept.toScalar = .ok x := by
  obtain ⟨lo, hlo⟩ := hj.least
  obtain ⟨hi, hhi⟩ := hj.greatest
  by_cases hfixed : j.kind = .fixed
  · rw [clamp, hfixed]
    exact ⟨_, _, _, rfl, rfl⟩
  · rw [clamp_of_moves hfixed hlo hhi]
    by_cases hover : Scalar.lt hi y = true
    · rw [if_pos hover]
      exact ⟨_, _, hi, rfl, Given.toScalar_of_compare? hhi⟩
    · rw [if_neg hover]
      by_cases hunder : Scalar.lt y lo = true
      · rw [if_pos hunder]
        exact ⟨_, _, lo, rfl, Given.toScalar_of_compare? hlo⟩
      · rw [if_neg hunder]
        exact ⟨_, _, y, rfl, rfl⟩

end Joint

/-! ## Ways down -/

namespace RobotState

variable {m : RobotModel ℝ} {root r : Pose ℝ} {values : Table String ℝ} {way : List (String × Joint ℝ)}

/-- The determinant of the rotation at the end of a way down, by the origins on the way. -/
noncomputable def detAlong (root : Pose ℝ) (way : List (String × Joint ℝ)) : ℝ :=
  root.rotation.det * (way.map fun e => e.2.origin.rotation.det).prod

theorem detAlong_concat (root : Pose ℝ) (way : List (String × Joint ℝ)) (e : String × Joint ℝ) :
    detAlong root (way ++ [e]) = detAlong root way * e.2.origin.rotation.det := by
  simp [detAlong, mul_assoc]

theorem exists_childOf {e : String × Joint ℝ} (he : e.2.IsAccepted) (values : Table String ℝ) :
    ∃ child, childOf values e = .ok child ∧ child.rotation.det = e.2.origin.rotation.det :=
  he.exists_childPose _

theorem det_below {above p : Pose ℝ} {e : String × Joint ℝ} (he : e.2.IsAccepted)
    (h : below values above e = .ok p) : p.rotation.det = above.rotation.det * e.2.origin.rotation.det := by
  obtain ⟨child, hchild, h⟩ := bind_eq_ok.mp h
  obtain ⟨child', hchild', hdet⟩ := exists_childOf he values
  cases hchild.symm.trans hchild'
  obtain ⟨-, rfl⟩ := Pose.make_eq_ok_iff.mp h
  rw [← hdet]
  exact Mat3.det_mul _ _

/-- The link below a joint can be placed if the determinant passes the check. -/
theorem exists_below {above : Pose ℝ} {e : String × Joint ℝ} (he : e.2.IsAccepted)
    (hdet : |above.rotation.det * e.2.origin.rotation.det - 1| ≤ 1 / 1000) (values : Table String ℝ) :
    ∃ p, below values above e = .ok p := by
  obtain ⟨child, hchild, hchildDet⟩ := exists_childOf he values
  refine ⟨_, bind_eq_ok.mpr ⟨child, hchild, Pose.make_eq_ok_iff.mpr ⟨?_, rfl⟩⟩⟩
  rw [Mat3.det_mul, hchildDet]
  exact hdet

theorem det_along (hway : ∀ e ∈ way, e.2.IsAccepted) {p : Pose ℝ} (h : along values root way = .ok p) :
    p.rotation.det = detAlong root way := by
  induction way generalizing root with
  | nil =>
    cases h
    simp [detAlong]
  | cons e rest ih =>
    obtain ⟨above, habove, h⟩ := bind_eq_ok.mp h
    rw [ih (fun e he => hway e (List.mem_cons_of_mem _ he)) h, detAlong,
      det_below (hway e List.mem_cons_self) habove]
    simp [detAlong, mul_assoc]

/-! ## The pass over the links -/

/-- The determinants at the ends of all ways down pass the check. -/
def Placeable (m : RobotModel ℝ) (root : Pose ℝ) : Prop :=
  ∀ link way, m.Path link way → |detAlong root way - 1| ≤ 1 / 1000

section Pass

variable (hm : m.Grown) (hj : ∀ name j, m.joints.find? name = some j → j.IsAccepted)

include hm hj

theorem placeable_of_forward {poses : Table String (Pose ℝ)} (h : forward m root values = .ok poses) :
    Placeable m root := by
  intro link way hpath
  obtain ⟨hfollows, hplaced⟩ := forward_follows hm.keyed h
  obtain ⟨p, hp⟩ := Option.isSome_iff_exists.mp (hplaced link hpath.mem_linkNames)
  obtain ⟨hcopy, way', hpath', halong⟩ := hfollows link p hp
  cases hpath.unique hpath'
  rw [← det_along (fun e he => hj e.1 e.2 (hpath.found e he)) halong]
  exact (Pose.make_eq_ok_iff.mp hcopy).1

/-- A link can be placed once its parent is. -/
theorem exists_placeLink (hplace : Placeable m root) {poses : Table String (Pose ℝ)}
    (hposes : Follows m root values poses) {l : Link ℝ} (hl : m.links.find? l.name = some l)
    (habove : ∀ above, l.parent = some above → poses.contains above = true) :
    ∃ p, placeLink m root values poses l = .ok p := by
  unfold placeLink
  cases hm.joined.hangs hl with
  | free hparent =>
    rw [hparent]
    have hdet := hplace l.name [] (.root hl hparent)
    simp only [detAlong, List.map_nil, List.prod_nil, mul_one] at hdet
    exact ⟨_, Pose.make_eq_ok_iff.mpr ⟨hdet, rfl⟩⟩
  | @fixed above joint j hparent hjoint hfound =>
    obtain ⟨q, hq⟩ := Option.isSome_iff_exists.mp (habove above hparent)
    obtain ⟨-, way, hpath, halong⟩ := hposes above q hq
    have hdet := hplace l.name _ (.down hl hparent hjoint hfound hpath)
    rw [detAlong_concat, ← det_along (fun e he => hj e.1 e.2 (hpath.found e he)) halong] at hdet
    obtain ⟨p, hp⟩ := exists_below (e := (joint, j)) (hj joint j hfound) hdet values
    rw [hparent, hjoint]
    refine ⟨p, bind_eq_ok.mpr ⟨j, RobotModel.joint_eq_ok.mpr hfound, ?_⟩⟩
    rw [hq]
    exact hp

/-- The links after some that are placed can be placed, since parents come first. -/
theorem exists_foldlM_placeLink (hplace : Placeable m root) {before after : List (Link ℝ)}
    (hlinks : m.links.values = before ++ after) {poses : Table String (Pose ℝ)}
    (hposes : Follows m root values poses) (hplaced : ∀ l ∈ before, poses.contains l.name = true) :
    ∃ poses', after.foldlM (fun poses l => do return poses.set l.name (← placeLink m root values poses l))
      poses = .ok poses' := by
  induction after generalizing before poses with
  | nil => exact ⟨poses, rfl⟩
  | cons l after ih =>
    have hl : m.links.find? l.name = some l := hm.keyed.find?_name (hlinks ▸ by simp)
    have hnames : m.linkNames = before.map Link.name ++ l.name :: after.map Link.name := by
      rw [← hm.keyed.map_name_values, hlinks, List.map_append, List.map_cons]
    have hnew : l.name ∉ before.map Link.name := by
      have hnodup := m.links.nodup_keys
      rw [← RobotModel.linkNames, hnames] at hnodup
      exact fun h => List.disjoint_of_nodup_append hnodup h List.mem_cons_self
    obtain ⟨p, hp⟩ := exists_placeLink hm hj hplace hposes hl fun above habove => by
      have hparent : m.parentOf l.name = some above := Option.bind_eq_some_iff.mpr ⟨l, hl, habove⟩
      have hbefore := hm.ordered.parent_before hparent
      rw [hnames, List.idxOf_append_of_notMem hnew, List.idxOf_cons_self] at hbefore
      have hmem : above ∈ before.map Link.name := by
        by_contra hnot
        rw [List.idxOf_append_of_notMem hnot] at hbefore
        omega
      obtain ⟨l', hl', rfl⟩ := List.mem_map.mp hmem
      exact hplaced l' hl'
    have hset : (do return poses.set l.name (← placeLink m root values poses l) : Except (Error ℝ) _) =
        .ok (poses.set l.name p) := bind_eq_ok.mpr ⟨p, hp, rfl⟩
    have hfound : ∀ l' ∈ [l], m.links.find? l'.name = some l' := by
      intro l' hl'
      rw [List.mem_singleton.mp hl']
      exact hl
    obtain ⟨hfollows, hnames'⟩ := foldlM_placeLink hfound hposes (bind_eq_ok.mpr ⟨_, hset, rfl⟩)
    have hlinks' : m.links.values = (before ++ [l]) ++ after := by rw [hlinks, List.append_assoc]; rfl
    have hplaced' : ∀ l' ∈ before ++ [l], (poses.set l.name p).contains l'.name = true := by
      intro l' hl'
      rcases List.mem_append.mp hl' with hl' | hl'
      · exact hnames' _ (.inl (hplaced l' hl'))
      · exact hnames' _ (.inr (List.mem_map_of_mem hl'))
    obtain ⟨poses', hposes'⟩ := ih hlinks' hfollows hplaced'
    exact ⟨poses', bind_eq_ok.mpr ⟨_, hset, hposes'⟩⟩

/-- Whatever the joint values are, the links can be placed if and only if all determinants pass. -/
theorem exists_forward_iff (values : Table String ℝ) :
    (∃ poses, forward m root values = .ok poses) ↔ Placeable m root := by
  constructor
  · rintro ⟨poses, h⟩
    exact placeable_of_forward hm hj h
  · intro hplace
    exact exists_foldlM_placeLink hm hj hplace (List.nil_append _).symm (fun _ _ h => by cases h) nofun

end Pass

/-! ## Values -/

section Values

variable (hj : ∀ name j, m.joints.find? name = some j → j.IsAccepted)

include hj

theorem exists_defaultValues : ∃ values, m.defaultValues = .ok values := by
  obtain ⟨degrees, hdegrees⟩ : ∃ degrees, m.joints.entries.mapM
      (fun (name, j) => (j.degrees).map fun n => (name, n)) = .ok degrees := by
    refine exists_mapM fun e he => ?_
    obtain ⟨n, hn⟩ := (hj e.1 e.2 (Table.find?_of_mem he)).exists_degrees
    exact ⟨_, map_eq_ok.mpr ⟨n, hn, rfl⟩⟩
  have hnames : m.jointNames = .ok _ := bind_eq_ok.mpr ⟨degrees, hdegrees, rfl⟩
  obtain ⟨entries, hentries⟩ := exists_mapM (f := fun name => do
      let j ← m.joint name
      let v ← Fault.lift j.defaultValue
      return (name, v)) fun name hname => by
    obtain ⟨j, -, hfound, -⟩ := ((RobotModel.jointNames_spec hnames).2 name).mp hname
    obtain ⟨x, hx⟩ := (hj name j hfound).exists_defaultValue
    exact ⟨_, bind_eq_ok.mpr ⟨j, RobotModel.joint_eq_ok.mpr hfound,
      bind_eq_ok.mpr ⟨x, Fault.lift_eq_ok.mpr hx, rfl⟩⟩⟩
  exact ⟨_, bind_eq_ok.mpr ⟨_, hnames, bind_eq_ok.mpr ⟨entries, hentries, rfl⟩⟩⟩

/-- A number can be written under the name of a joint. -/
theorem exists_clampedValue {name : String} {j : Joint ℝ} (hfound : m.joints.find? name = some j)
    {v : Given ℝ} {y : ℝ} (hv : v.toScalar = .ok y) : ∃ kept, clampedValue m name v = .ok kept := by
  obtain ⟨kept, event, x, hclamp, hx⟩ := (hj name j hfound).exists_clamp y
  exact ⟨_, bind_eq_ok.mpr ⟨j, RobotModel.joint_eq_ok.mpr hfound, bind_eq_ok.mpr ⟨y, Fault.lift_eq_ok.mpr hv,
    bind_eq_ok.mpr ⟨_, Fault.lift_eq_ok.mpr hclamp, bind_eq_ok.mpr ⟨x, Fault.lift_eq_ok.mpr hx, rfl⟩⟩⟩⟩⟩

omit hj in
theorem failure_writeValues {s : RobotState ℝ} {es : List (String × Given ℝ)} (events : List (Event ℝ))
    (h : ∀ e ∈ es, ∃ kept, clampedValue m e.1 e.2 = .ok kept) :
    (writeValues m s es events).failure = none := by
  induction es generalizing s events with
  | nil => rfl
  | cons e rest ih =>
    obtain ⟨name, v⟩ := e
    obtain ⟨kept, hkept⟩ := h (name, v) List.mem_cons_self
    rw [writeValues, hkept]
    exact ih _ fun e he => h e (List.mem_cons_of_mem _ he)

/-- Numbers can be set under the names of joints where the links can be placed. -/
theorem failure_setValues (hm : m.Grown) {s : RobotState ℝ} (hplace : Placeable m s.root)
    {changes : List (String × Given ℝ)}
    (hchanges : ∀ e ∈ changes, (∃ j, m.joints.find? e.1 = some j) ∧ ∃ y, e.2.toScalar = .ok y) :
    (s.setValues m changes).failure = none := by
  have hwritten : (writeValues m s (Table.ofList changes).entries []).failure = none := by
    refine failure_writeValues [] fun e he => ?_
    obtain ⟨⟨j, hfound⟩, y, hy⟩ := hchanges e (Table.mem_entries_ofList he)
    exact exists_clampedValue hj hfound hy
  have hstate := writeValues_state (m := m) (s := s) (Table.ofList changes).entries []
  unfold setValues
  generalize writeValues m s (Table.ofList changes).entries [] = w at hwritten hstate ⊢
  obtain ⟨state, events, failure⟩ := w
  obtain rfl : failure = none := hwritten
  obtain rfl : state = { s with values := s.values.setAll _ } := hstate
  obtain ⟨poses, hposes⟩ := (exists_forward_iff hm hj _).mpr hplace
  simp only [refresh]
  rw [hposes]

end Values

/-! ## A crane -/

section Crane

/-- A tower that turns on a base, and a hook that is lifted on the tower. -/
noncomputable def crane : RobotModel ℝ :=
  let base := (RobotModel.empty .plain (some "arm")).addLink ⟨"base", none, none, none, [], none⟩
  let tower := base.model.addLink
    ⟨"tower", some "base", some (.rotational (some "turn") ⟨0, 0, 2⟩ .origin none none), none, [], none⟩
  (tower.model.addLink ⟨"hook", some "tower", some lift, none, [], none⟩).model

theorem grown_crane : crane.Grown := .addLink _ (.addLink _ (.addLink _ (.empty _ _)))

theorem entries_crane : crane.joints.entries =
    [("turn", { Joint.rotational (some "turn") ⟨0, 0, 2⟩ Pose.origin none none with
        parent := some "base", child := some "tower" }),
     ("lift", { lift with parent := some "tower", child := some "hook" })] := rfl

theorem joints_crane (name : String) (j : Joint ℝ) (h : crane.joints.find? name = some j) :
    j.IsAccepted ∧ j.origin = .origin := by
  have hmem := Table.mem_entries_of_lookup h
  rw [entries_crane, List.mem_cons, List.mem_singleton] at hmem
  rcases hmem with hmem | hmem
  · cases hmem
    have haxis : (⟨0, 0, 2⟩ : Vec3 ℝ).normalize ≠ ⟨0, 0, 0⟩ := by
      intro hzero
      have hunit := Vec3.normSq_normalize (v := ⟨0, 0, 2⟩) (by simp)
      rw [hzero] at hunit
      norm_num [Vec3.normSq] at hunit
    refine ⟨⟨fun hkind => ?_, fun axis hkind => JointKind.rotational.inj hkind ▸ haxis, Pose.toPose_origin,
      ⟨_, rfl⟩, ⟨_, rfl⟩⟩, rfl⟩
    cases hkind
  · cases hmem
    refine ⟨⟨fun hkind => ?_, fun axis hkind => ?_, Pose.toPose_origin, ⟨_, rfl⟩, ⟨_, rfl⟩⟩, rfl⟩
    · cases hkind
    · cases hkind

end Crane

/-! ## States -/

/-- A state of a robot can be made if and only if the determinants at the ends of all ways down pass
    the check. They do if all rotations have determinant one. Where a state can be made, numbers can be
    set under the names of joints, whatever the state is by then. -/
theorem exists_state_iff (hm : m.Grown) (hj : ∀ name j, m.joints.find? name = some j → j.IsAccepted)
    {source : PoseSource ℝ} (hroot : source.toPose = .ok root) :
    ((∃ s, atDefaults m source = .ok s) ↔ Placeable m root) ∧
    (root.rotation.det = 1 → (∀ name j, m.joints.find? name = some j → j.origin.rotation.det = 1) →
      ∃ s, atDefaults m source = .ok s) ∧
    ((∃ s, atDefaults m source = .ok s) → ∀ s : RobotState ℝ, s.root = root →
      ∀ changes : List (String × Given ℝ),
        (∀ e ∈ changes, (∃ j, m.joints.find? e.1 = some j) ∧ ∃ x, e.2.toScalar = .ok x) →
        (s.setValues m changes).failure = none) := by
  have hiff : (∃ s, atDefaults m source = .ok s) ↔ Placeable m root := by
    constructor
    · rintro ⟨s, h⟩
      obtain ⟨_, hroot', h⟩ := bind_eq_ok.mp h
      cases hroot.symm.trans hroot'
      obtain ⟨_, -, h⟩ := bind_eq_ok.mp h
      obtain ⟨_, hposes, -⟩ := bind_eq_ok.mp h
      exact placeable_of_forward hm hj hposes
    · intro hplace
      obtain ⟨values, hvalues⟩ := exists_defaultValues hj
      obtain ⟨poses, hposes⟩ := (exists_forward_iff hm hj values).mpr hplace
      exact ⟨_, bind_eq_ok.mpr ⟨root, hroot, bind_eq_ok.mpr ⟨values, hvalues,
        bind_eq_ok.mpr ⟨poses, hposes, rfl⟩⟩⟩⟩
  refine ⟨hiff, fun hdet horigins => hiff.mpr fun link way hpath => ?_, ?_⟩
  · have hone : detAlong root way = 1 := by
      rw [detAlong, hdet, one_mul]
      refine List.prod_eq_one fun d hd => ?_
      obtain ⟨e, he, rfl⟩ := List.mem_map.mp hd
      exact horigins e.1 e.2 (hpath.found e he)
    rw [hone]
    norm_num
  · intro hmade s hs changes hchanges
    exact failure_setValues hj hm (hs ▸ hiff.mp hmade) hchanges

/-- The crane has a state at the origin, and can be turned and lifted. -/
theorem exists_state_iff_crane : ∃ s, atDefaults crane .absent = .ok s ∧
    (s.setValues crane [("turn", .real 1), ("lift", .real 5)]).failure = none := by
  have hj := fun name j h => (joints_crane name j h).1
  have hroot : (PoseSource.absent : PoseSource ℝ).toPose = .ok Pose.origin := rfl
  obtain ⟨-, hmade, hset⟩ := exists_state_iff grown_crane hj hroot
  obtain ⟨s, hs⟩ := hmade Mat3.det_identity fun name j h => by
    rw [(joints_crane name j h).2]
    exact Mat3.det_identity
  obtain ⟨_, hroot', hstate⟩ := bind_eq_ok.mp hs
  cases hroot'
  obtain ⟨_, -, hstate⟩ := bind_eq_ok.mp hstate
  obtain ⟨_, -, hstate⟩ := bind_eq_ok.mp hstate
  cases hstate
  refine ⟨_, hs, hset ⟨_, hs⟩ _ rfl _ fun e he => ?_⟩
  rcases List.mem_cons.mp he with rfl | he
  · exact ⟨⟨_, rfl⟩, _, rfl⟩
  · obtain rfl := List.mem_singleton.mp he
    exact ⟨⟨_, rfl⟩, _, rfl⟩

/-- A pose that is accepted though it stretches space a little. -/
noncomputable def stretched : Pose ℝ := ⟨⟨0, 0, 0⟩, ⟨⟨1.0009, 0, 0⟩, ⟨0, 1, 0⟩, ⟨0, 0, 1⟩⟩, ""⟩

theorem det_stretched : stretched.rotation.det = 1.0009 := by
  rw [Mat3.det_eq]
  norm_num [stretched, Vec3.dot, Vec3.cross]

/-- A base with a tool that is fixed to it at such a pose. -/
noncomputable def welded : RobotModel ℝ :=
  let base := (RobotModel.empty .plain (some "arm")).addLink ⟨"base", none, none, none, [], none⟩
  (base.model.addLink ⟨"tool", some "base", some (.fixed (some "weld") stretched), none, [], none⟩).model

/-- Two poses can be accepted, and a robot have no state though its root and its joint are at them. -/
theorem exists_without_state : welded.Grown ∧
    (∀ name j, welded.joints.find? name = some j → j.IsAccepted) ∧ stretched.copy = .ok stretched ∧
    ∀ s, atDefaults welded (.pose stretched) ≠ .ok s := by
  have haccepted : stretched.copy = .ok stretched := by
    refine Pose.make_eq_ok_iff.mpr ⟨?_, rfl⟩
    rw [det_stretched]
    norm_num [abs_le]
  have hgrown : welded.Grown := .addLink _ (.addLink _ (.empty _ _))
  have hj : ∀ name j, welded.joints.find? name = some j → j.IsAccepted := by
    intro name j h
    have hmem := Table.mem_entries_of_lookup h
    rw [show welded.joints.entries = [("weld", { Joint.fixed (some "weld") stretched with
      parent := some "base", child := some "tool" })] from rfl, List.mem_singleton] at hmem
    cases hmem
    exact ⟨nofun, nofun, haccepted, ⟨_, rfl⟩, ⟨_, rfl⟩⟩
  refine ⟨hgrown, hj, haccepted, fun s h => ?_⟩
  obtain ⟨r, hr, h⟩ := bind_eq_ok.mp h
  cases Pose.eq_of_copy hr
  obtain ⟨_, -, h⟩ := bind_eq_ok.mp h
  obtain ⟨_, hposes, -⟩ := bind_eq_ok.mp h
  have hpath : welded.Path "tool" [("weld", { Joint.fixed (some "weld") stretched with
      parent := some "base", child := some "tool" })] := .down rfl rfl rfl rfl (.root rfl rfl)
  have hdet := placeable_of_forward hgrown hj hposes "tool" _ hpath
  simp only [detAlong, List.map_cons, List.map_nil, List.prod_cons, List.prod_nil, mul_one, Joint.fixed,
    det_stretched] at hdet
  norm_num [abs_le] at hdet

end RobotState

end Clearance
