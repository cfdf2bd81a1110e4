import Clearance.Proofs.Outcomes
import Clearance.Robot.Model

/-!
# How robot models grow

A model is grown if it was begun empty and changed only by adding links and groups. What one attempt
to add a link can do is said once; a fact about grown models then takes one case for each way.

* `RobotModel.Grown`: the grown models.
* `RobotModel.Adding`, `RobotModel.adding`: the ways in which adding a link can go.
* `RobotModel.Keyed`, `RobotModel.Grown.keyed`: links stand under their own names.
* `RobotModel.KnowsGroups`, `RobotModel.Grown.knowsGroups`: groups name links that are there.
* `RobotModel.Path`: the joints between the root and a link, from the root down. There is at most
  one such path (`RobotModel.Path.unique`).
-/

namespace Clearance.RobotModel

variable {α : Type}

/-! ## One addition -/

@[simp] theorem name_addChild (l : Link α) (child : String) : (l.addChild child).name = l.name := by
  unfold Link.addChild
  split <;> rfl

/-- A link that hangs on a parent is found, the parent has one more child, and all else is as
    before. -/
theorem find?_hang (m : RobotModel α) (l parent : Link α) (joint name : String) (j : Joint α) :
    (m.hang l parent joint j).links.find? name =
      if l.name = name then some { l with parent := some parent.name, joint := some joint }
      else if parent.name = name then some (parent.addChild l.name) else m.links.find? name := by
  unfold hang
  rw [Table.find?_set, Table.find?_set]

theorem joint_eq_ok {m : RobotModel α} {name : String} {j : Joint α} :
    m.joint name = .ok j ↔ m.joints.find? name = some j := by
  unfold joint
  split
  · rename_i h
    rw [h]
    exact ⟨fun e => congrArg some (Except.ok.inj e), fun e => congrArg Except.ok (Option.some.inj e)⟩
  · rename_i h
    rw [h]
    constructor <;> intro heq <;> cases heq

theorem mem_linkNames_iff {m : RobotModel α} {name : String} :
    name ∈ m.linkNames ↔ ∃ l, m.links.find? name = some l := by
  rw [linkNames, ← Table.contains_iff, Table.contains, Option.isSome_iff_exists]

/-- A link is found if it is there, and otherwise its name is told. -/
theorem link_of_mem {m : RobotModel α} {name : String} (h : name ∈ m.linkNames) : ∃ l, m.link name = .ok l := by
  obtain ⟨l, hl⟩ := mem_linkNames_iff.mp h
  exact ⟨l, by rw [link, hl]⟩

theorem link_of_not_mem {m : RobotModel α} {name : String} (h : name ∉ m.linkNames) :
    m.link name = .error (.unknownLink m.name name) := by
  unfold link
  split
  · rename_i l hl
    exact absurd (mem_linkNames_iff.mpr ⟨l, hl⟩) h
  · rfl

/-- A group changes neither links nor joints. -/
theorem links_addGroup {m m' : RobotModel α} {name : String} {links : List String}
    (h : m.addGroup name links = .ok m') : m'.links = m.links ∧ m'.joints = m.joints := by
  obtain ⟨_, -, h⟩ := bind_eq_ok.mp h
  cases h
  exact ⟨rfl, rfl⟩

variable [Scalar α]

/-- A link on its own has the name that was asked for and hangs on nothing. -/
theorem of_makeLink {source : LinkSource α} {l : Link α} (h : makeLink source = .ok l) :
    l.name = source.name ∧ l.parent = none ∧ l.joint = none := by
  obtain ⟨shapes, -, h⟩ := bind_eq_ok.mp h
  dsimp only at h
  split at h
  · cases h
  · obtain ⟨poses, -, h⟩ := bind_eq_ok.mp h
    cases h
    exact ⟨rfl, rfl, rfl⟩

/-- What an attempt to add a link makes of a model: nothing, or it has a root now, or a link that
    hangs on its parent by a joint of a new name. -/
inductive Adding (m : RobotModel α) (source : LinkSource α) : RobotModel α → Prop where
  | refused : Adding m source m
  | root {l : Link α} :
      m.links.find? source.name = none → makeLink source = .ok l → m.root? = none →
      Adding m source { m with links := m.links.set l.name l }
  | hung {l parent : Link α} {above name : String} {j : Joint α} :
      m.links.find? source.name = none → makeLink source = .ok l →
      m.links.find? above = some parent → m.joints.find? name = none →
      j.name = some name → j.parent = some parent.name → j.child = some l.name →
      Adding m source (m.hang l parent name j)

theorem addingUnder {m : RobotModel α} {source : LinkSource α} {l : Link α} (above : String)
    (hnew : m.links.find? source.name = none) (hl : makeLink source = .ok l) :
    Adding m source (m.addUnder source l above).model := by
  unfold addUnder link
  cases hp : m.links.find? above with
  | none => exact .refused
  | some parent =>
    dsimp only
    split
    · exact .refused
    · rename_i hj
      split
      · exact .refused
      · exact .hung hnew hl hp (Option.not_isSome_iff_eq_none.mp hj) rfl rfl rfl

theorem adding (m : RobotModel α) (source : LinkSource α) :
    Adding m source (m.addLink source).model := by
  unfold addLink
  split
  · exact .refused
  · rename_i hold
    have hnew : m.links.find? source.name = none := Option.not_isSome_iff_eq_none.mp hold
    cases hl : makeLink source with
    | error e => exact .refused
    | ok l =>
      dsimp only
      cases source.parent with
      | some above => exact addingUnder above hnew hl
      | none =>
        dsimp only
        cases hr : m.root? with
        | some root => exact .refused
        | none => exact .root hnew hl hr

/-! ## Grown models -/

/-- The models that were begun empty and changed by adding links, in vain or not, and groups. -/
inductive Grown : RobotModel α → Prop where
  | empty (kind : ModelKind) (name : Option String) : Grown (.empty kind name)
  | addLink {m : RobotModel α} (source : LinkSource α) : Grown m → Grown (m.addLink source).model
  | addGroup {m m' : RobotModel α} {name : String} {links : List String} :
      Grown m → m.addGroup name links = .ok m' → Grown m'

/-- Every link stands under its own name. -/
def Keyed (m : RobotModel α) : Prop := ∀ name l, m.links.find? name = some l → l.name = name

omit [Scalar α] in
theorem Keyed.map_name_values {m : RobotModel α} (hm : m.Keyed) :
    m.links.values.map Link.name = m.linkNames := by
  rw [Table.values, linkNames, Table.keys, List.map_map]
  exact List.map_congr_left fun e he => hm e.1 e.2 (Table.find?_of_mem he)

omit [Scalar α] in
theorem Keyed.find?_name {m : RobotModel α} (hm : m.Keyed) {l : Link α} (hl : l ∈ m.links.values) :
    m.links.find? l.name = some l := by
  obtain ⟨e, he, rfl⟩ := List.mem_map.mp hl
  have hfound := Table.find?_of_mem he
  rw [hm e.1 e.2 hfound]
  exact hfound

theorem Adding.keyed {m m' : RobotModel α} {source : LinkSource α} (h : Adding m source m')
    (hm : m.Keyed) : m'.Keyed := by
  cases h with
  | refused => exact hm
  | root _ _ _ =>
    intro name l' hl'
    rw [Table.find?_set] at hl'
    split at hl'
    · rename_i hname
      cases hl'
      exact hname
    · exact hm name l' hl'
  | hung =>
    intro name l' hl'
    rw [find?_hang] at hl'
    split at hl'
    · rename_i hname
      cases hl'
      exact hname
    · split at hl'
      · rename_i hname
        cases hl'
        rw [name_addChild, hname]
      · exact hm name l' hl'

theorem Grown.keyed {m : RobotModel α} (hm : m.Grown) : m.Keyed := by
  induction hm with
  | empty => exact fun _ _ h => by cases h
  | addLink source _ ih => exact (adding _ source).keyed ih
  | addGroup _ hg ih => exact fun name l h => ih name l ((links_addGroup hg).1 ▸ h)

/-- Groups name no links but those that are there. -/
def KnowsGroups (m : RobotModel α) : Prop :=
  ∀ name links, m.groups.find? name = some links → ∀ link ∈ links, link ∈ m.linkNames

omit [Scalar α] in
theorem mem_keys_set_of_mem {t : Table String (Link α)} {name link : String} {l : Link α} (h : link ∈ t.keys) :
    link ∈ (t.set name l).keys := by
  rw [Table.keys_set]
  split
  · exact h
  · exact List.mem_append_left _ h

omit [Scalar α] in
theorem mem_linkNames_of_link {m : RobotModel α} {name : String} {l : Link α} (h : m.link name = .ok l) :
    name ∈ m.linkNames := by
  by_contra hnot
  rw [link_of_not_mem hnot] at h
  cases h

/-- An attempt to add a link takes none away. -/
theorem Adding.mem_linkNames {m m' : RobotModel α} {source : LinkSource α} (h : Adding m source m') {name : String}
    (hname : name ∈ m.linkNames) : name ∈ m'.linkNames := by
  cases h with
  | refused => exact hname
  | root => exact mem_keys_set_of_mem hname
  | hung => exact mem_keys_set_of_mem (mem_keys_set_of_mem hname)

theorem Adding.knowsGroups {m m' : RobotModel α} {source : LinkSource α} (h : Adding m source m')
    (hm : m.KnowsGroups) : m'.KnowsGroups := by
  intro name links hlinks link hlink
  have hgroups : m'.groups = m.groups := by cases h <;> rfl
  exact h.mem_linkNames (hm name links (hgroups ▸ hlinks) link hlink)

theorem Grown.knowsGroups {m : RobotModel α} (hm : m.Grown) : m.KnowsGroups := by
  induction hm with
  | empty => exact nofun
  | addLink source _ ih => exact (adding _ source).knowsGroups ih
  | @addGroup m m' name links _ hg ih =>
    obtain ⟨_, hknown, h⟩ := bind_eq_ok.mp hg
    cases h
    intro name' links' hlinks' link hlink
    rw [Table.find?_set] at hlinks'
    split at hlinks'
    · cases hlinks'
      obtain ⟨l, hl, -⟩ := bind_eq_ok.mp (forM_eq_ok.mp hknown link hlink)
      exact mem_linkNames_of_link hl
    · exact ih name' links' hlinks' link hlink

/-! ## Paths -/

/-- The joints by which a link hangs on the root, with their names, from the root down. -/
inductive Path (m : RobotModel α) : String → List (String × Joint α) → Prop where
  | root {name : String} {l : Link α} :
      m.links.find? name = some l → l.parent = none → Path m name []
  | down {name above joint : String} {l : Link α} {j : Joint α} {js : List (String × Joint α)} :
      m.links.find? name = some l → l.parent = some above → l.joint = some joint →
      m.joints.find? joint = some j → Path m above js → Path m name (js ++ [(joint, j)])

omit [Scalar α] in
/-- The joints of a path are joints of the model. -/
theorem Path.found {m : RobotModel α} {name : String} {js : List (String × Joint α)} (h : m.Path name js) :
    ∀ e ∈ js, m.joints.find? e.1 = some e.2 := by
  induction h with
  | root => exact fun _ he => absurd he List.not_mem_nil
  | down _ _ _ hfound _ ih =>
    intro e he
    rcases List.mem_append.mp he with he | he
    · exact ih e he
    · cases List.mem_singleton.mp he
      exact hfound

omit [Scalar α] in
/-- A path leads to a link of the model. -/
theorem Path.mem_linkNames {m : RobotModel α} {name : String} {js : List (String × Joint α)} (h : m.Path name js) :
    name ∈ m.linkNames := by
  cases h with
  | root hl => exact mem_linkNames_iff.mpr ⟨_, hl⟩
  | down hl => exact mem_linkNames_iff.mpr ⟨_, hl⟩

omit [Scalar α] in
/-- There is one way down to a link. -/
theorem Path.unique {m : RobotModel α} {name : String} {js js' : List (String × Joint α)}
    (h : m.Path name js) (h' : m.Path name js') : js = js' := by
  induction h generalizing js' with
  | root hl hp =>
    cases h' with
    | root => rfl
    | down hl' hp' =>
      cases hl.symm.trans hl'
      cases hp.symm.trans hp'
  | down hl hp hj hfound _ ih =>
    cases h' with
    | root hl' hp' =>
      cases hl.symm.trans hl'
      cases hp.symm.trans hp'
    | down hl' hp' hj' hfound' hjs =>
      cases hl.symm.trans hl'
      cases hp.symm.trans hp'
      cases hj.symm.trans hj'
      cases hfound.symm.trans hfound'
      rw [ih hjs]

end Clearance.RobotModel
