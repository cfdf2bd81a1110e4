import Clearance.Proofs.Geometry.Rigid
import Clearance.Proofs.Robot.Growth
import Clearance.Robot.State

/-!
# Failed changes of joint values

Joint values are written one after the other, each after its joint was found, and the poses follow
when all of them are written. A change that fails on the way therefore leaves the poses as they were
and the values that were written by then.

* `RobotState.accepted`: the values that are written.
* `RobotState.setValues_cases`: the ways in which a change can go.
* `RobotState.setValues_of_failure`: when a failed change has changed nothing.
-/

namespace Clearance.RobotState

variable {α : Type} [Scalar α] {m : RobotModel α} {s : RobotState α}

/-- The values that are written: those before the first that is refused, within their limits. -/
def accepted (m : RobotModel α) : List (String × Given α) → List (String × α)
  | [] => []
  | (name, v) :: rest =>
    match clampedValue m name v with
    | .error _ => []
    | .ok (x, _) => (name, x) :: accepted m rest

/-- Values are written under the names under which they are given. -/
theorem accepted_sublist (m : RobotModel α) (es : List (String × Given α)) :
    ((accepted m es).map Prod.fst).Sublist (es.map Prod.fst) := by
  induction es with
  | nil => exact .slnil
  | cons e rest ih =>
    obtain ⟨name, v⟩ := e
    rw [accepted]
    split
    · exact List.nil_sublist _
    · exact ih.cons_cons name

/-- Writing values changes nothing but the values, whether it fails or not. -/
theorem writeValues_state (es : List (String × Given α)) (events : List (Event α)) :
    (writeValues m s es events).state = { s with values := s.values.setAll (accepted m es) } := by
  induction es generalizing s events with
  | nil => rfl
  | cons e rest ih =>
    obtain ⟨name, v⟩ := e
    rw [writeValues, accepted]
    cases clampedValue m name v with
    | error e => rfl
    | ok kept => exact ih _

/-- A change of values goes wrong while they are written, or when the poses are to follow, or it
    goes well. -/
theorem setValues_cases (m : RobotModel α) (s : RobotState α) (values : List (String × Given α)) :
    let written := s.values.setAll (accepted m (Table.ofList values).entries)
    (∃ events e, setValues m s values = ⟨{ s with values := written }, events, some e⟩) ∨
      ∃ poses events, forward m s.root written = .ok poses ∧
        setValues m s values = ⟨{ s with values := written, poses := poses }, events, none⟩ := by
  intro written
  have hstate := writeValues_state (m := m) (s := s) (Table.ofList values).entries []
  unfold setValues
  generalize writeValues m s (Table.ofList values).entries [] = w at hstate ⊢
  obtain ⟨state, events, failure⟩ := w
  obtain rfl : state = { s with values := written } := hstate
  cases failure with
  | some e => exact Or.inl ⟨events, e, rfl⟩
  | none =>
    simp only [refresh]
    cases forward m s.root written with
    | error e => exact Or.inl ⟨events, e, rfl⟩
    | ok poses => exact Or.inr ⟨poses, events, rfl, rfl⟩

/-! ## A slider -/

section Slider

/-- A joint that lifts its child by at most one. -/
noncomputable def lift : Joint ℝ :=
  ⟨some "lift", .linear ⟨0, 0, 1⟩, .origin, .real 0, .real 1, some "base", some "slider"⟩

/-- A base, and a link that the joint lifts. -/
noncomputable def slider : RobotModel ℝ :=
  let base := (RobotModel.empty .plain (some "arm")).addLink ⟨"base", none, none, none, [], none⟩
  (base.model.addLink ⟨"slider", some "base", some lift, none, [], none⟩).model

theorem grown_slider : slider.Grown := .addLink _ (.addLink _ (.empty _ _))

theorem joint_slider : slider.joint "lift" = .ok lift := rfl

/-- Whatever the values are, the links of the slider can be placed. -/
theorem forward_slider (values : Table String ℝ) :
    ∃ poses, forward slider .origin values = .ok poses := by
  let base : Link ℝ := ⟨"base", [], none, ["slider"], none⟩
  let slide : Link ℝ := ⟨"slider", [], some "base", [], some "lift"⟩
  let placed : Table String (Pose ℝ) := Table.empty.set "base" .origin
  have hbase : placeLink slider .origin values Table.empty base = .ok .origin := Pose.toPose_origin
  have hchild (x : ℝ) : lift.childPose (.real x) =
      .ok ⟨Pose.origin.position + Mat3.identity.mulVec (Vec3.scale x ⟨0, 0, 1⟩), .identity, ""⟩ :=
    Pose.make_identity _ _
  obtain ⟨p, hslide⟩ : ∃ p, placeLink slider .origin values placed slide = .ok p :=
    ⟨_, bind_eq_ok.mpr ⟨_, joint_slider,
      bind_eq_ok.mpr ⟨_, hchild _, Pose.transform_of_identity _ _ _ _⟩⟩⟩
  exact ⟨_, bind_eq_ok.mpr ⟨placed, bind_eq_ok.mpr ⟨_, hbase, rfl⟩,
    bind_eq_ok.mpr ⟨_, bind_eq_ok.mpr ⟨_, hslide, rfl⟩, rfl⟩⟩⟩

/-- By default the slider is down. -/
theorem atDefaults_slider : ∃ poses,
    atDefaults slider .absent = .ok ⟨.origin, Table.empty.set "lift" 0, poses⟩ := by
  have clip : ∀ z : ℝ, z = 0 → Scalar.clip z 0 1 = 0 := by
    rintro z rfl
    simp [Scalar.clip]
  have hvalues : slider.defaultValues = .ok (Table.empty.set "lift" 0) :=
    congrArg (fun x => Except.ok (Table.empty.set "lift" x)) (clip _ Exact.zero_eq)
  obtain ⟨poses, hposes⟩ := forward_slider (Table.empty.set "lift" 0)
  exact ⟨poses, bind_eq_ok.mpr ⟨_, rfl, bind_eq_ok.mpr ⟨_, hvalues,
    bind_eq_ok.mpr ⟨_, hposes, rfl⟩⟩⟩⟩

/-- The value one is within the limits of the slider. -/
theorem clampedValue_lift : clampedValue slider "lift" (.real 1) = .ok (1, []) := by
  have exceeds (x y : ℝ) : Joint.exceeds (.real x) (.real y) = .ok (Scalar.lt y x) := rfl
  have hgreatest : Scalar.lt (1 : ℝ) 1 = false := by simp [← Bool.not_eq_true]
  have hleast : Scalar.lt (1 : ℝ) 0 = false := by simp [← Bool.not_eq_true]
  have hclamp : lift.clamp (.real 1) = .ok (.real 1, none) := by
    simp only [Joint.clamp, lift, exceeds, hgreatest, hleast]
    rfl
  exact bind_eq_ok.mpr ⟨_, joint_slider, bind_eq_ok.mpr ⟨1, rfl,
    bind_eq_ok.mpr ⟨_, Fault.lift_eq_ok.mpr hclamp, rfl⟩⟩⟩

/-- A change of a joint that is there and of one that is not. -/
noncomputable def halfKnown : List (String × Given ℝ) := [("lift", .real 1), ("nope", .real 0)]

theorem setValues_halfKnown (s : RobotState ℝ) :
    setValues slider s halfKnown =
      ⟨{ s with values := s.values.set "lift" 1 }, [], some (.unknownJoint (some "arm") "nope")⟩ := by
  have hwritten : writeValues slider s (Table.ofList halfKnown).entries [] =
      ⟨{ s with values := s.values.set "lift" 1 }, [], some (.unknownJoint (some "arm") "nope")⟩ := by
    rw [show (Table.ofList halfKnown).entries = halfKnown from rfl, halfKnown, writeValues,
      clampedValue_lift]
    rfl
  unfold setValues
  rw [hwritten]

end Slider

/-! ## Failed changes -/

/-- A change of joint values that fails leaves all poses as they were. It leaves the values as they
    were too if and only if those that were written before it failed were the values already. -/
theorem setValues_of_failure (m : RobotModel α) (s : RobotState α)
    (values : List (String × Given α)) (e : Error α)
    (h : (setValues m s values).failure = some e) :
    let left := (setValues m s values).state
    let written := accepted m (Table.ofList values).entries
    (∀ l, left.linkPose m l = s.linkPose m l) ∧
      (∀ name, left.values.find? name = (Table.lookup name written).or (s.values.find? name)) ∧
      (left.values = s.values ↔ ∀ name x, (name, x) ∈ written → s.values.find? name = some x) := by
  intro left written
  have hleft : left = { s with values := s.values.setAll written } := by
    obtain ⟨events, e', hset⟩ | ⟨poses, events, -, hset⟩ := setValues_cases m s values
    · exact congrArg Change.state hset
    · rw [hset] at h
      cases h
  have hnodup : (written.map Prod.fst).Nodup :=
    (Table.ofList values).nodup.sublist (accepted_sublist m _)
  have hfind : ∀ name, left.values.find? name = (Table.lookup name written).or (s.values.find? name) := by
    intro name
    rw [hleft]
    exact Table.find?_setAll hnodup s.values name
  refine ⟨fun l => by rw [hleft]; rfl, hfind, fun heq name x hx => ?_, fun hwritten => ?_⟩
  · rw [← heq, hfind, Table.lookup_of_mem hnodup hx, Option.some_or]
  · rw [hleft]
    exact Table.setAll_self fun e he => hwritten e.1 e.2 he

/-- The slider is not lifted, although its joint has the value by then. -/
theorem setValues_of_failure_slider : ∃ s e, atDefaults slider .absent = .ok s ∧
    (setValues slider s halfKnown).failure = some e ∧
    let left := (setValues slider s halfKnown).state
    let written := accepted slider (Table.ofList halfKnown).entries
    (∀ l, left.linkPose slider l = s.linkPose slider l) ∧
      (∀ name, left.values.find? name = (Table.lookup name written).or (s.values.find? name)) ∧
      (left.values = s.values ↔ ∀ name x, (name, x) ∈ written → s.values.find? name = some x) := by
  obtain ⟨poses, hs⟩ := atDefaults_slider
  have hfailure := congrArg Change.failure
    (setValues_halfKnown ⟨.origin, Table.empty.set "lift" 0, poses⟩)
  exact ⟨_, _, hs, hfailure, setValues_of_failure slider _ halfKnown _ hfailure⟩

/-- A failed change can change a joint value of a state that has just been made. -/
theorem exists_values_ne_of_failure : ∃ s e, slider.Grown ∧ atDefaults slider .absent = .ok s ∧
    (setValues slider s halfKnown).failure = some e ∧
    s.values.find? "lift" = some 0 ∧
    (setValues slider s halfKnown).state.values.find? "lift" = some 1 ∧
    (setValues slider s halfKnown).state.values ≠ s.values := by
  obtain ⟨poses, hs⟩ := atDefaults_slider
  have hset := setValues_halfKnown ⟨.origin, Table.empty.set "lift" 0, poses⟩
  refine ⟨_, _, grown_slider, hs, congrArg Change.failure hset, rfl, ?_, fun h => ?_⟩
  · rw [hset]
    rfl
  · have hlift := congrArg (fun t => Table.find? t "lift") h
    rw [hset] at hlift
    exact one_ne_zero (Option.some.inj hlift)

end Clearance.RobotState
