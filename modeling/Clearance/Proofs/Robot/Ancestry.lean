import Clearance.Proofs.Robot.Growth

/-!
# The way up from a link

In a grown model every link but the first hangs on a link that was added before it. So the way up
from a link goes to smaller and smaller places in the order of the links and ends at the first one.

* `RobotModel.Ordered`, `RobotModel.Grown.ordered`: a parent precedes its children, and only the
  first link has none.
* `RobotModel.Joined`, `RobotModel.Grown.joined`: each link but the root hangs by a joint of its own.
* `RobotModel.WayUp`: the way up as the parents tell it, with no bound on its length.
* `RobotModel.Ordered.wayUp_climb`: a climb with enough steps is that way; the number of the links
  is enough.
-/

namespace Clearance.RobotModel

variable {α : Type} {m m' : RobotModel α}

/-- The link on which a link hangs. -/
def parentOf (m : RobotModel α) (name : String) : Option String := (m.links.find? name).bind Link.parent

/-- Parents come before their children in the order of the links, and only the first link has no
    parent. -/
structure Ordered (m : RobotModel α) : Prop where
  parent_mem : ∀ {name above : String}, m.parentOf name = some above → above ∈ m.linkNames
  parent_before : ∀ {name above : String}, m.parentOf name = some above →
    m.linkNames.idxOf above < m.linkNames.idxOf name
  root_first : ∀ {name : String}, name ∈ m.linkNames → m.parentOf name = none →
    m.linkNames.head? = some name

/-- A link hangs on no other and by no joint, or on one by a joint that tells the same of it. -/
inductive Hangs (m : RobotModel α) (name : String) (l : Link α) : Prop where
  | free : l.parent = none → l.joint = none → Hangs m name l
  | fixed {above joint : String} {j : Joint α} :
      l.parent = some above → l.joint = some joint → m.joints.find? joint = some j →
      j.name = some joint → j.parent = some above → j.child = some name → Hangs m name l

/-- The joints of the links are all joints, each of them once and in order. -/
structure Joined (m : RobotModel α) : Prop where
  joints_eq : m.links.values.filterMap Link.joint = m.joints.keys
  hangs : ∀ {name : String} {l : Link α}, m.links.find? name = some l → m.Hangs name l

/-! ## One addition -/

theorem mem_linkNames_of_parentOf {name above : String} (h : m.parentOf name = some above) :
    name ∈ m.linkNames := by
  obtain ⟨l, hl, -⟩ := Option.bind_eq_some_iff.mp h
  exact mem_linkNames_iff.mpr ⟨l, hl⟩

theorem not_mem_linkNames {name : String} (h : m.links.find? name = none) : name ∉ m.linkNames := by
  rw [mem_linkNames_iff, h]
  exact fun ⟨_, e⟩ => nomatch e

@[simp] theorem parent_addChild (l : Link α) (child : String) : (l.addChild child).parent = l.parent := by
  unfold Link.addChild
  split <;> rfl

@[simp] theorem joint_addChild (l : Link α) (child : String) : (l.addChild child).joint = l.joint := by
  unfold Link.addChild
  split <;> rfl

/-- A link in the place of another leaves the names. -/
theorem keys_set_of_link {name : String} {l l' : Link α} (h : m.links.find? name = some l) :
    (m.links.set name l').keys = m.linkNames := by
  rw [Table.keys_set]
  exact if_pos (mem_linkNames_iff.mpr ⟨l, h⟩)

/-- The links with one that hangs on a parent are those before and the new one. -/
theorem linkNames_hang {l parent : Link α} {joint : String} {j : Joint α}
    (hparent : m.links.find? parent.name = some parent) (hnew : m.links.find? l.name = none) :
    (m.hang l parent joint j).linkNames = m.linkNames ++ [l.name] := by
  simp only [linkNames, hang, Table.keys_set _ l.name, keys_set_of_link hparent]
  exact if_neg (not_mem_linkNames hnew)

/-- A link that is hung on a parent changes no other parent. -/
theorem parentOf_hang {l parent : Link α} {joint : String} {j : Joint α} (name : String)
    (hparent : m.links.find? parent.name = some parent) :
    (m.hang l parent joint j).parentOf name = if l.name = name then some parent.name else m.parentOf name := by
  unfold parentOf
  rw [find?_hang]
  split
  · rfl
  · split
    · rename_i hname
      rw [← hname, hparent, Option.bind_some, Option.bind_some, parent_addChild]
    · rfl

/-- An ordered model without a root is empty: a first link would hang on one before it. -/
theorem Ordered.linkNames_eq_nil (hm : m.Ordered) (hroot : m.root? = none) : m.linkNames = [] := by
  cases hnames : m.linkNames with
  | nil => rfl
  | cons first rest =>
    obtain ⟨l, hl⟩ := mem_linkNames_iff.mp (hnames ▸ List.mem_cons_self : first ∈ m.linkNames)
    have hparent : l.parent ≠ none := by
      simpa using List.find?_eq_none.mp hroot l (Table.mem_values_of_find? hl)
    obtain ⟨above, habove⟩ := Option.ne_none_iff_exists'.mp hparent
    have hbefore := hm.parent_before (show m.parentOf first = some above by rw [parentOf, hl]; exact habove)
    rw [hnames, List.idxOf_cons_self] at hbefore
    exact absurd hbefore (Nat.not_lt_zero _)

/-! ## The order of the links -/

theorem Ordered.root {l : Link α} (hparent : l.parent = none) (hnames : m.linkNames = []) :
    Ordered { m with links := m.links.set l.name l } := by
  have hfind : ∀ name, m.links.find? name = none := by
    intro name
    rw [Option.eq_none_iff_forall_ne_some]
    intro l hl
    have hmem := mem_linkNames_iff.mpr ⟨l, hl⟩
    rw [hnames] at hmem
    cases hmem
  have hkeys : (m.links.set l.name l).keys = [l.name] := by
    rw [Table.keys_set, show m.links.keys = [] from hnames]
    rfl
  have hnone : ∀ name, parentOf { m with links := m.links.set l.name l } name = none := by
    intro name
    simp only [parentOf, Table.find?_set]
    split
    · exact hparent
    · rw [hfind name, Option.bind_none]
  refine ⟨fun h => ?_, fun h => ?_, fun hmem _ => ?_⟩
  · cases (hnone _).symm.trans h
  · cases (hnone _).symm.trans h
  · simp only [linkNames, hkeys, List.mem_singleton] at hmem ⊢
    rw [hmem]
    rfl

theorem Ordered.hang {l parent : Link α} {joint : String} {j : Joint α} (hm : m.Ordered)
    (hparent : m.links.find? parent.name = some parent) (hnew : m.links.find? l.name = none) :
    (m.hang l parent joint j).Ordered := by
  have hmem : parent.name ∈ m.linkNames := mem_linkNames_iff.mpr ⟨parent, hparent⟩
  have hnames : (m.hang l parent joint j).linkNames = m.linkNames ++ [l.name] := linkNames_hang hparent hnew
  refine ⟨fun {name above} h => ?_, fun {name above} h => ?_, fun {name} h hnone => ?_⟩
  all_goals rw [hnames] at *
  · rw [parentOf_hang _ hparent] at h
    split at h
    · cases h
      exact List.mem_append_left _ hmem
    · exact List.mem_append_left _ (hm.parent_mem h)
  · rw [parentOf_hang _ hparent] at h
    split at h
    · rename_i hname
      -- the new link is last, behind its parent
      cases h
      cases hname
      rw [List.idxOf_append, List.idxOf_append, if_pos hmem, if_neg (not_mem_linkNames hnew), Nat.add_comm]
      exact Nat.lt_add_right _ (List.idxOf_lt_length_of_mem hmem)
    · have hold := mem_linkNames_of_parentOf h
      rw [List.idxOf_append, List.idxOf_append, if_pos hold, if_pos (hm.parent_mem h)]
      exact hm.parent_before h
  · rw [parentOf_hang _ hparent] at hnone
    split at hnone
    · cases hnone
    · rename_i hne
      have hold : name ∈ m.linkNames := by
        rcases List.mem_append.mp h with h | h
        · exact h
        · exact absurd (List.mem_singleton.mp h).symm hne
      rw [List.head?_append, hm.root_first hold hnone]
      rfl

/-! ## The joints of the links -/

theorem Joined.root {l : Link α} (hl : l.parent = none ∧ l.joint = none) (hnew : m.links.find? l.name = none)
    (hm : m.Joined) : Joined { m with links := m.links.set l.name l } := by
  refine ⟨?_, fun {name l'} h => ?_⟩
  · simp only [Table.values_set_of_not_mem (not_mem_linkNames hnew), List.filterMap_append, hm.joints_eq,
      List.filterMap_cons, hl.2, List.filterMap_nil, List.append_nil]
  · rw [Table.find?_set] at h
    split at h
    · cases h
      exact .free hl.1 hl.2
    · cases hm.hangs h with
      | free hp hj => exact .free hp hj
      | fixed hp hj hfound hname habove hbelow => exact .fixed hp hj hfound hname habove hbelow

/-- A link keeps its joint when another joint is added. -/
theorem Hangs.hang {l l' parent : Link α} {name joint : String} {j : Joint α} (h : m.Hangs name l')
    (hjoint : m.joints.find? joint = none) : (m.hang l parent joint j).Hangs name l' := by
  cases h with
  | free hp hj => exact .free hp hj
  | fixed hp hj hfound hname habove hbelow =>
    refine .fixed hp hj ?_ hname habove hbelow
    rw [show (m.hang l parent joint j).joints = m.joints.set joint j from rfl, Table.find?_set, if_neg]
    · exact hfound
    · rintro rfl
      cases hjoint.symm.trans hfound

theorem Hangs.addChild {l : Link α} {name : String} (child : String) (h : m.Hangs name l) :
    m.Hangs name (l.addChild child) := by
  cases h with
  | free hp hj => exact .free (by rw [parent_addChild, hp]) (by rw [joint_addChild, hj])
  | fixed hp hj hfound hname habove hbelow =>
    exact .fixed (by rw [parent_addChild, hp]) (by rw [joint_addChild, hj]) hfound hname habove hbelow

theorem Joined.hang {l parent : Link α} {joint : String} {j : Joint α} (hm : m.Joined)
    (hparent : m.links.find? parent.name = some parent) (hnew : m.links.find? l.name = none)
    (hjoint : m.joints.find? joint = none) (hname : j.name = some joint)
    (habove : j.parent = some parent.name) (hbelow : j.child = some l.name) :
    (m.hang l parent joint j).Joined := by
  refine ⟨?_, fun {name l'} h => ?_⟩
  · have hlast : l.name ∉ (m.links.set parent.name (parent.addChild l.name)).keys := by
      rw [keys_set_of_link hparent]
      exact not_mem_linkNames hnew
    have hjoints : (m.hang l parent joint j).joints.keys = m.joints.keys ++ [joint] := by
      refine (Table.keys_set _ _ _).trans (if_neg fun hmem => ?_)
      rw [← Table.contains_iff, Table.contains, hjoint] at hmem
      cases hmem
    rw [hjoints, ← hm.joints_eq]
    simp only [RobotModel.hang, Table.values_set_of_not_mem hlast, List.filterMap_append,
      Table.filterMap_values_set hparent (joint_addChild parent l.name), List.filterMap_cons, List.filterMap_nil]
  · rw [find?_hang] at h
    split at h
    · rename_i heq
      cases h
      refine .fixed rfl rfl ?_ hname habove (heq ▸ hbelow)
      exact (Table.find?_set ..).trans (if_pos rfl)
    · split at h
      · rename_i heq
        cases h
        exact ((hm.hangs (heq ▸ hparent)).hang hjoint).addChild l.name
      · exact (hm.hangs h).hang hjoint

/-! ## The way up -/

/-- The names met on the way up from a link, the link first and the root last. -/
inductive WayUp (m : RobotModel α) : String → List String → Prop where
  | root {name : String} : m.parentOf name = none → WayUp m name [name]
  | up {name above : String} {way : List String} :
      m.parentOf name = some above → WayUp m above way → WayUp m name (name :: way)

/-- There is one way up from a link. -/
theorem WayUp.unique {name : String} {way way' : List String} (h : m.WayUp name way)
    (h' : m.WayUp name way') : way = way' := by
  induction h generalizing way' with
  | root hnone =>
    cases h' with
    | root => rfl
    | up habove' => cases hnone.symm.trans habove'
  | up habove _ ih =>
    cases h' with
    | root hnone' => cases hnone'.symm.trans habove
    | up habove' hway' =>
      cases habove.symm.trans habove'
      rw [ih hway']

/-- A climb with more steps than the place of the link goes all the way up: the places on the way
    get smaller, since parents come first. -/
theorem Ordered.wayUp_climb (hm : m.Ordered) {steps : Nat} {name : String}
    (hsteps : m.linkNames.idxOf name < steps) : m.WayUp name (m.climb steps name) := by
  induction steps generalizing name with
  | zero => exact absurd hsteps (Nat.not_lt_zero _)
  | succ steps ih =>
    rw [climb, ← parentOf]
    cases habove : m.parentOf name with
    | none => exact .root habove
    | some above => exact .up habove (ih (Nat.lt_of_lt_of_le (hm.parent_before habove) (Nat.le_of_lt_succ hsteps)))

/-- The ancestors of a link are the names on the way up from it. -/
theorem Ordered.wayUp_ancestors (hm : m.Ordered) {name : String} (hname : name ∈ m.linkNames) :
    m.WayUp name (m.ancestors name) := by
  refine hm.wayUp_climb ?_
  rw [Table.size, ← List.length_map Prod.fst]
  exact List.idxOf_lt_length_of_mem hname

/-- The ancestors of a link that hangs on another are the link and the ancestors of the other. -/
theorem Ordered.ancestors_of_parent (hm : m.Ordered) {name above : String} (h : m.parentOf name = some above) :
    m.ancestors name = name :: m.ancestors above :=
  (hm.wayUp_ancestors (mem_linkNames_of_parentOf h)).unique (.up h (hm.wayUp_ancestors (hm.parent_mem h)))

/-- The places of the links get smaller on the way up. -/
theorem WayUp.sorted {name : String} {way : List String} (h : m.WayUp name way) (hm : m.Ordered) :
    (∀ x ∈ way, m.linkNames.idxOf x ≤ m.linkNames.idxOf name) ∧ way.Nodup := by
  induction h with
  | root => simp
  | @up name above way habove _ ih =>
    have hbelow : ∀ x ∈ way, m.linkNames.idxOf x < m.linkNames.idxOf name := fun x hx =>
      Nat.lt_of_le_of_lt (ih.1 x hx) (hm.parent_before habove)
    refine ⟨fun x hx => ?_, List.nodup_cons.mpr ⟨fun hmem => Nat.lt_irrefl _ (hbelow name hmem), ih.2⟩⟩
    rcases List.mem_cons.mp hx with rfl | hx
    · exact Nat.le_refl _
    · exact Nat.le_of_lt (hbelow x hx)

/-- The way up from a link meets only links. -/
theorem WayUp.subset {name : String} {way : List String} (h : m.WayUp name way) (hm : m.Ordered)
    (hname : name ∈ m.linkNames) : way ⊆ m.linkNames := by
  induction h with
  | root => exact List.cons_subset.mpr ⟨hname, List.nil_subset _⟩
  | up habove _ ih => exact List.cons_subset.mpr ⟨hname, ih (hm.parent_mem habove)⟩

/-- The way up from a link begins with it. -/
theorem WayUp.mem_self {name : String} {way : List String} (h : m.WayUp name way) : name ∈ way := by
  cases h <;> exact List.mem_cons_self

/-- The way up from a link ends at the first link. -/
theorem WayUp.mem_first {name first : String} {way : List String} (h : m.WayUp name way) (hm : m.Ordered)
    (hname : name ∈ m.linkNames) (hfirst : m.linkNames.head? = some first) : first ∈ way := by
  induction h with
  | root hnone => exact List.mem_singleton.mpr (Option.some.inj (hfirst.symm.trans (hm.root_first hname hnone)))
  | up habove _ ih => exact List.mem_cons_of_mem _ (ih (hm.parent_mem habove))

/-! ## Grown models -/

variable [Scalar α]

theorem Adding.ordered {source : LinkSource α} (h : Adding m source m') (hkeyed : m.Keyed)
    (hm : m.Ordered) : m'.Ordered := by
  cases h with
  | refused => exact hm
  | root _ hl hroot => exact .root (of_makeLink hl).2.1 (hm.linkNames_eq_nil hroot)
  | hung hnew hl hparent =>
    rw [← (of_makeLink hl).1] at hnew
    exact hm.hang ((hkeyed _ _ hparent).symm ▸ hparent) hnew

/-- In a grown model parents come before their children, and only the first link has none. -/
theorem Grown.ordered (hm : m.Grown) : m.Ordered := by
  induction hm with
  | empty => exact ⟨nofun, nofun, nofun⟩
  | addLink source hm ih => exact (adding _ source).ordered hm.keyed ih
  | addGroup _ hg ih =>
    have hlinks := (links_addGroup hg).1
    obtain ⟨h₁, h₂, h₃⟩ := ih
    refine ⟨?_, ?_, ?_⟩ <;> simp only [parentOf, linkNames, hlinks] at * <;> assumption

theorem Adding.joined {source : LinkSource α} (h : Adding m source m') (hkeyed : m.Keyed)
    (hm : m.Joined) : m'.Joined := by
  cases h with
  | refused => exact hm
  | root hnew hl hroot => exact hm.root (of_makeLink hl).2 ((of_makeLink hl).1 ▸ hnew)
  | hung hnew hl hparent hjoint hname habove hbelow =>
    rw [← (of_makeLink hl).1] at hnew
    exact hm.hang ((hkeyed _ _ hparent).symm ▸ hparent) hnew hjoint hname habove hbelow

/-- In a grown model each link but the root hangs by a joint of its own. -/
theorem Grown.joined (hm : m.Grown) : m.Joined := by
  induction hm with
  | empty => exact ⟨rfl, nofun⟩
  | addLink source hm ih => exact (adding _ source).joined hm.keyed ih
  | addGroup _ hg ih =>
    obtain ⟨hlinks, hjoints⟩ := links_addGroup hg
    refine ⟨?_, fun {name l} h => ?_⟩
    · rw [hlinks, hjoints]
      exact ih.joints_eq
    · rw [hlinks] at h
      cases ih.hangs h with
      | free hp hj => exact .free hp hj
      | fixed hp hj hfound => exact .fixed hp hj (hjoints ▸ hfound) ‹_› ‹_› ‹_›

end Clearance.RobotModel
