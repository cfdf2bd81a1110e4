import Clearance.Number.Float
import Clearance.Proofs.Robot.Growth

/-!
# Additions that fail

An attempt to add a link that fails leaves the model as it was. Of the joint that was handed in it
leaves all but the name: a joint without one is named as soon as it is looked at, and only then its
name is compared with the others and the place of the link is read.

* `RobotModel.looksAtJoint`, `LinkSource.jointKey`: whether an attempt comes to the joint, and the
  name that the joint has then.
* `RobotModel.Refusal`, `RobotModel.outcome_eq_error_iff`: the ways in which an attempt fails.
* `RobotModel.addLink_of_failure`: what a failed attempt leaves.
-/

namespace Clearance

/-! ## Joints that are given a name -/

/-- The joint with a name, if it has none of its own. -/
def Joint.called {α : Type} (j : Joint α) (name : String) : Joint α := { j with name := some (j.name.getD name) }

theorem Joint.called_eq_self_iff {α : Type} {j : Joint α} {name : String} : j.called name = j ↔ j.name ≠ none := by
  obtain ⟨own, kind, origin, least, greatest, parent, child⟩ := j
  cases own with
  | none => exact iff_of_false nofun fun h => h rfl
  | some own => exact iff_of_true rfl nofun

/-- The name under which the joint of a link is to be kept. -/
def LinkSource.jointKey {α : Type} (source : LinkSource α) : String :=
  (source.joint.bind Joint.name).getD (RobotModel.jointName source.name)

namespace RobotModel

variable {α : Type} [Scalar α]

/-- Whether an attempt to add a link comes as far as its joint: the name is new, the link can be made,
    and it is to hang on a link that is there. -/
def looksAtJoint (m : RobotModel α) (source : LinkSource α) : Bool :=
  !m.links.contains source.name && (makeLink source).isOk && source.parent.any m.links.contains

/-- A failed attempt to add a link, with its error and the joint as it is left. -/
inductive Refusal (m : RobotModel α) (source : LinkSource α) : Error α → Option (Joint α) → Prop where
  | known : source.name ∈ m.linkNames → Refusal m source (.linkExists source.name) source.joint
  | unmade {e : Error α} : source.name ∉ m.linkNames → makeLink source = .error e → Refusal m source e source.joint
  | second {l root : Link α} :
      source.name ∉ m.linkNames → makeLink source = .ok l → source.parent = none → m.root? = some root →
      Refusal m source (.rootExists m.name root.name) source.joint
  | orphan {l : Link α} {above : String} :
      source.name ∉ m.linkNames → makeLink source = .ok l → source.parent = some above → above ∉ m.linkNames →
      Refusal m source (.unknownLink m.name above) source.joint
  | taken :
      m.looksAtJoint source = true → source.jointKey ∈ m.joints.keys →
      Refusal m source (.jointExists source.jointKey) (source.joint.map (Joint.called · (jointName source.name)))
  | misplaced {place : PoseSource α} {e : Error α} :
      m.looksAtJoint source = true → source.jointKey ∉ m.joints.keys → source.origin = some place →
      place.toPose = .error e →
      Refusal m source e (source.joint.map (Joint.called · (jointName source.name)))

/-! ## The ways to fail -/

theorem looksAtJoint_iff {m : RobotModel α} {source : LinkSource α} : m.looksAtJoint source = true ↔
    source.name ∉ m.linkNames ∧ (∃ l, makeLink source = .ok l) ∧
      ∃ above, source.parent = some above ∧ above ∈ m.linkNames := by
  have hmade : (makeLink source).isOk = true ↔ ∃ l, makeLink source = .ok l := by
    cases makeLink source with
    | ok l => exact iff_of_true rfl ⟨l, rfl⟩
    | error e => exact iff_of_false nofun nofun
  rw [looksAtJoint, Bool.and_eq_true, Bool.and_eq_true, Bool.not_eq_true', Bool.eq_false_iff, hmade,
    Option.any_eq_true]
  simp only [ne_eq, linkNames, Table.contains_iff, and_assoc]

/-- The joint that is looked at is the one that was handed in, or one that does not move. -/
theorem name_getD_joint (source : LinkSource α) :
    (source.joint.getD (Joint.fixed none Pose.origin)).name.getD (jointName source.name) = source.jointKey := by
  rw [LinkSource.jointKey]
  cases source.joint <;> rfl

theorem map_called_joint (source : LinkSource α) : (source.joint.map fun _ =>
    { source.joint.getD (Joint.fixed none Pose.origin) with name := some source.jointKey }) =
      source.joint.map (Joint.called · (jointName source.name)) := by
  rw [LinkSource.jointKey]
  cases source.joint <;> rfl

/-- Once the parent is found, a new joint name and a place for the link are all that is asked for. -/
theorem exists_refusal_of_addUnder {m : RobotModel α} {source : LinkSource α} {l parent : Link α} {above : String}
    {e : Error α} (hl : makeLink source = .ok l) (hparent : m.link above = .ok parent)
    (hlooks : m.looksAtJoint source = true) (h : (m.addUnder source l above).outcome = .error e) :
    ∃ j, Refusal m source e j := by
  unfold addUnder at h
  rw [hparent] at h
  dsimp only at h
  rw [(of_makeLink hl).1, name_getD_joint, map_called_joint] at h
  split at h
  · rename_i htaken
    cases h
    exact ⟨_, .taken hlooks ((Table.contains_iff _ _).mp htaken)⟩
  · rename_i hfree
    have hnew := mt (Table.contains_iff _ _).mpr hfree
    cases hplace : source.origin with
    | none =>
      rw [hplace] at h
      cases h
    | some place =>
      rw [hplace, Option.map_some, Option.getD_some] at h
      cases hread : place.toPose with
      | error e' =>
        rw [hread] at h
        cases h
        exact ⟨_, .misplaced hlooks hnew hplace hread⟩
      | ok origin =>
        rw [hread] at h
        cases h

/-- An attempt that fails does so in one of the ways. -/
theorem exists_refusal {m : RobotModel α} {source : LinkSource α} {e : Error α}
    (h : (m.addLink source).outcome = .error e) : ∃ j, Refusal m source e j := by
  unfold addLink at h
  split at h
  · rename_i hknown
    cases h
    exact ⟨_, .known ((Table.contains_iff _ _).mp hknown)⟩
  · rename_i hfree
    have hnew : source.name ∉ m.linkNames := mt (Table.contains_iff _ _).mpr hfree
    cases hl : makeLink source with
    | error e' =>
      rw [hl] at h
      cases h
      exact ⟨_, .unmade hnew hl⟩
    | ok l =>
      rw [hl] at h
      dsimp only at h
      cases hparent : source.parent with
      | none =>
        rw [hparent] at h
        dsimp only at h
        cases hroot : m.root? with
        | none =>
          rw [hroot] at h
          cases h
        | some root =>
          rw [hroot] at h
          cases h
          exact ⟨_, .second hnew hl hparent hroot⟩
      | some above =>
        rw [hparent] at h
        dsimp only at h
        by_cases habove : above ∈ m.linkNames
        · obtain ⟨parent, hfound⟩ := link_of_mem habove
          exact exists_refusal_of_addUnder hl hfound (looksAtJoint_iff.mpr ⟨hnew, ⟨l, hl⟩, above, hparent, habove⟩) h
        · rw [addUnder, link_of_not_mem habove] at h
          cases h
          exact ⟨_, .orphan hnew hl hparent habove⟩

/-- An attempt that is refused fails, and is left as the refusal tells. -/
theorem Refusal.addLink_eq {m : RobotModel α} {source : LinkSource α} {e : Error α} {j : Option (Joint α)}
    (h : Refusal m source e j) : m.addLink source = ⟨m, j, .error e⟩ := by
  have hfree : source.name ∉ m.linkNames → ¬ m.links.contains source.name = true :=
    mt (Table.contains_iff _ _).mp
  cases h with
  | known hknown => exact if_pos ((Table.contains_iff _ _).mpr hknown)
  | unmade hnew hunmade => rw [addLink, if_neg (hfree hnew), hunmade]
  | second hnew hl hparent hroot => simp only [addLink, if_neg (hfree hnew), hl, hparent, hroot]
  | orphan hnew hl hparent habove =>
    simp only [addLink, if_neg (hfree hnew), hl, hparent, addUnder, link_of_not_mem habove]
  | taken hlooks hname =>
    obtain ⟨hnew, ⟨l, hl⟩, above, hparent, habove⟩ := looksAtJoint_iff.mp hlooks
    obtain ⟨parent, hfound⟩ := link_of_mem habove
    simp only [addLink, if_neg (hfree hnew), hl, hparent, addUnder, hfound]
    rw [(of_makeLink hl).1, name_getD_joint, map_called_joint]
    exact if_pos ((Table.contains_iff _ _).mpr hname)
  | misplaced hlooks hname hplace hread =>
    obtain ⟨hnew, ⟨l, hl⟩, above, hparent, habove⟩ := looksAtJoint_iff.mp hlooks
    obtain ⟨parent, hfound⟩ := link_of_mem habove
    simp only [addLink, if_neg (hfree hnew), hl, hparent, addUnder, hfound]
    rw [(of_makeLink hl).1, name_getD_joint, map_called_joint, if_neg (mt (Table.contains_iff _ _).mp hname)]
    simp only [hplace, Option.map_some, Option.getD_some, hread]

/-- An attempt to add a link fails if and only if it is refused in one of the ways. -/
theorem outcome_eq_error_iff {m : RobotModel α} {source : LinkSource α} {e : Error α} :
    (m.addLink source).outcome = .error e ↔ ∃ j, Refusal m source e j := by
  constructor
  · exact exists_refusal
  · rintro ⟨j, hrefusal⟩
    rw [hrefusal.addLink_eq]

/-- The joint is left with a name if the attempt came to it, and otherwise as it was. -/
theorem Refusal.joint_eq {m : RobotModel α} {source : LinkSource α} {e : Error α} {j : Option (Joint α)}
    (h : Refusal m source e j) :
    j = source.joint.map fun j => if m.looksAtJoint source then j.called (jointName source.name) else j := by
  by_cases hlooks : m.looksAtJoint source = true
  · obtain ⟨hnew, ⟨l, hl⟩, above, hparent, habove⟩ := looksAtJoint_iff.mp hlooks
    simp only [hlooks, if_true]
    cases h with
    | known hknown => exact absurd hknown hnew
    | unmade _ hunmade =>
      rw [hl] at hunmade
      cases hunmade
    | second _ _ hnone _ =>
      rw [hparent] at hnone
      cases hnone
    | orphan _ _ hother horphan =>
      rw [hparent] at hother
      cases hother
      exact absurd habove horphan
    | taken => rfl
    | misplaced => rfl
  · simp only [hlooks]
    cases h with
    | known | unmade | second | orphan => exact Option.map_id'.symm
    | taken hlooks' => exact absurd hlooks' hlooks
    | misplaced hlooks' => exact absurd hlooks' hlooks

/-- A failed attempt to add a link leaves the model as it was, and the joint but for its name. The
    joint is left as it was if and only if it has a name or the attempt did not come to it. A joint that
    was named goes by that name when it is handed in again. -/
theorem addLink_of_failure {m : RobotModel α} {source : LinkSource α} {e : Error α}
    (h : (m.addLink source).outcome = .error e) :
    let left := (m.addLink source).joint
    (m.addLink source).model = m ∧ Refusal m source e left ∧
      left = source.joint.map (fun j =>
        { j with name := if m.looksAtJoint source then some (j.name.getD (jointName source.name)) else j.name }) ∧
      (left = source.joint ↔ (m.looksAtJoint source = true → ∀ j, source.joint = some j → j.name ≠ none)) ∧
      ∀ j (again : LinkSource α), m.looksAtJoint source = true → left = some j → again.joint = some j →
        again.jointKey = source.jointKey := by
  intro left
  obtain ⟨j, hrefusal⟩ := outcome_eq_error_iff.mp h
  have hadd := hrefusal.addLink_eq
  obtain rfl : left = j := congrArg LinkAddition.joint hadd
  have hleft := hrefusal.joint_eq
  refine ⟨congrArg LinkAddition.model hadd, hrefusal, ?_, ?_, ?_⟩
  · rw [hleft]
    congr 1
    funext j
    split <;> rfl
  · rw [hleft]
    cases hjoint : source.joint with
    | none => exact iff_of_true rfl fun _ _ h => nomatch h
    | some j =>
      rw [Option.map_some, Option.some.injEq]
      split
      · rename_i hlooks
        rw [Joint.called_eq_self_iff]
        exact ⟨fun hne _ _ hj => Option.some.inj hj ▸ hne, fun hne => hne hlooks j rfl⟩
      · rename_i hlooks
        exact iff_of_true rfl fun h => absurd h hlooks
  · intro j again hlooks hj hagain
    rw [hleft] at hj
    obtain ⟨own, hown, hcalled⟩ := Option.map_eq_some_iff.mp hj
    rw [if_pos hlooks] at hcalled
    rw [LinkSource.jointKey, LinkSource.jointKey, hagain, hown, ← hcalled]
    rfl

/-- A base with a camera on it, by a joint with the name that the joint of a tool gets by default. -/
def mounted : RobotModel Float :=
  let base := (RobotModel.empty .plain (some "arm")).addLink ⟨"base", none, none, none, [], none⟩
  (base.model.addLink ⟨"camera", some "base", some (.fixed (some "tool_joint") .origin), none, [], none⟩).model

theorem grown_mounted : mounted.Grown := .addLink _ (.addLink _ (.empty _ _))

/-- A joint that turns and has no name. -/
def wrist : Joint Float := .rotational none ⟨0, 0, 1⟩ .origin none none

/-- A link that is to hang on the base by a joint. -/
def onBase (name : String) (joint : Joint Float) : LinkSource Float :=
  ⟨name, some "base", some joint, none, [], none⟩

theorem addLink_tool : mounted.addLink (onBase "tool" wrist) =
    ⟨mounted, some (wrist.called "tool_joint"), .error (.jointExists "tool_joint")⟩ := rfl

/-- The tool is refused, and the wrist is named after it. -/
theorem addLink_of_failure_tool : ∃ e, (mounted.addLink (onBase "tool" wrist)).outcome = .error e ∧
    let left := (mounted.addLink (onBase "tool" wrist)).joint
    (mounted.addLink (onBase "tool" wrist)).model = mounted ∧ Refusal mounted (onBase "tool" wrist) e left ∧
      left = some { wrist with name := some "tool_joint" } ∧ left ≠ some wrist := by
  have hfailure : (mounted.addLink (onBase "tool" wrist)).outcome = .error (.jointExists "tool_joint") := by
    rw [addLink_tool]
  have hlooks : mounted.looksAtJoint (onBase "tool" wrist) = true := rfl
  obtain ⟨hmodel, hrefusal, hleft, hiff, -⟩ := addLink_of_failure hfailure
  refine ⟨_, hfailure, hmodel, hrefusal, ?_, fun heq => hiff.mp heq hlooks wrist rfl rfl⟩
  rw [hleft, hlooks]
  rfl

/-- A joint without a name can be left with one by a failed attempt, and is refused for another link
    then, though it would not be if it were as before. -/
theorem exists_joint_named_of_failure : mounted.Grown ∧ wrist.name = none ∧
    (mounted.addLink (onBase "tool" wrist)).outcome = .error (.jointExists "tool_joint") ∧
    ∃ left, (mounted.addLink (onBase "tool" wrist)).joint = some left ∧ left.name = some "tool_joint" ∧
      left ≠ wrist ∧ (mounted.addLink (onBase "gripper" left)).outcome = .error (.jointExists "tool_joint") ∧
      ∃ l, (mounted.addLink (onBase "gripper" wrist)).outcome = .ok l := by
  refine ⟨grown_mounted, rfl, by rw [addLink_tool], wrist.called "tool_joint", by rw [addLink_tool], rfl, ?_, rfl, _,
    rfl⟩
  rw [Ne, Joint.called_eq_self_iff]
  exact fun h => h rfl

end RobotModel

end Clearance
