import Clearance.Proofs.Collision.Budgets
import Clearance.Proofs.Collision.Deeds

/-!
# Who owns the bodies, and in which order they are listed

Bodies are given out when they are attached to a link or added to a world. A body that was given out
is released as soon as it is stored no more: when it is taken off or away, or another takes its
place. The bodies of a link are listed in an order that the log tells.

* `Checkers.Owned`, `Checkers.owned_of_recorded`: bodies that are held no more are released.
* `Checkers.exists_placed`: the bodies of a group.
* `Checkers.keeps_in_order`: which bodies are released, and the order of all that is stored.
-/

namespace Clearance.Checkers

variable {α : Type}

/-- The places of the bodies that are attached to links, and of the obstacles of worlds. -/
def stored (s : Checkers α) : List Nat :=
  s.robots.flatMap (fun c => c.geometries.values.flatMap fun g => g.attached.values) ++
    s.worlds.flatMap fun w => w.objects.values

variable [Scalar α] {settings : Settings α} {models : List (RobotModel α)} {hand : List Nat} {log : List Deed}
  {s : Checkers α}

/-! ## Which bodies are released -/

/-- Bodies that were given out are there, each was given out once, and none of them is a link's own.
    Those that are held no more are released. -/
structure Owned (log : List Deed) (s : Checkers α) : Prop where
  present : ∀ id ∈ log.filterMap Deed.body?, id < s.inventory.bodies.size
  nodup : (log.filterMap Deed.body?).Nodup
  foreign : ∀ id ∈ log.filterMap Deed.body?, ∀ i link g, s.geometryAt i link = some g → g.body ≠ some id
  released : ∀ id ∈ log.filterMap Deed.body?, id ∉ s.held →
    ∀ b, s.inventory.body? id = some b → b.isReleased = true

omit [Scalar α] in
theorem mem_held_of_geometryAt {i : Nat} {link : String} {g : LinkGeometry α} (hg : s.geometryAt i link = some g)
    {id : Nat} (hid : id ∈ g.bodies) : id ∈ s.held := by
  obtain ⟨c, hc, hfind⟩ := Option.bind_eq_some_iff.mp hg
  refine mem_held_of_robot (List.mem_of_getElem? hc) ?_
  exact List.mem_flatMap_of_mem (Table.mem_values_of_find? hfind) hid

omit [Scalar α] in
theorem mem_held_of_world {i : Nat} {w : WorldChecker α} (hw : s.worlds[i]? = some w) {id : Nat}
    (hid : id ∈ w.objects.values) : id ∈ s.held :=
  List.mem_append_right _ (List.mem_flatMap_of_mem (List.mem_of_getElem? hw) hid)

omit [Scalar α] in
/-- What is held is stored, or it is a link's own body. -/
theorem mem_stored_of_mem_held {id : Nat} (h : id ∈ s.held) :
    id ∈ s.stored ∨ ∃ i link g, s.geometryAt i link = some g ∧ g.body = some id := by
  rcases List.mem_append.mp h with h | h
  · obtain ⟨c, hc, h⟩ := List.mem_flatMap.mp h
    obtain ⟨g, hg, h⟩ := List.mem_flatMap.mp h
    rcases List.mem_append.mp h with h | h
    · obtain ⟨i, hi⟩ := List.mem_iff_getElem?.mp hc
      obtain ⟨e, he, rfl⟩ := List.mem_map.mp hg
      refine .inr ⟨i, e.1, e.2, ?_, Option.mem_toList.mp h⟩
      rw [geometryAt, hi]
      exact Table.find?_of_mem he
    · exact .inl (List.mem_append_left _ (List.mem_flatMap_of_mem hc (List.mem_flatMap_of_mem hg h)))
  · exact .inl (List.mem_append_right _ h)

omit [Scalar α] in
theorem mem_held_of_mem_stored {id : Nat} (h : id ∈ s.stored) : id ∈ s.held := by
  rcases List.mem_append.mp h with h | h
  · obtain ⟨c, hc, h⟩ := List.mem_flatMap.mp h
    obtain ⟨g, hg, h⟩ := List.mem_flatMap.mp h
    exact mem_held_of_robot hc (List.mem_flatMap_of_mem hg (List.mem_append_right _ h))
  · exact List.mem_append_right _ h

omit [Scalar α] in
theorem outcome_eq_some {β : Type} {x : InventoryM α β} {b : β} :
    s.outcome x = some b ↔ ∃ inv, x.run s.inventory = (.ok b, inv) := by
  unfold outcome
  obtain ⟨r, inv⟩ := x.run s.inventory
  cases r with
  | ok b' =>
    constructor
    · intro h
      cases h
      exact ⟨inv, rfl⟩
    · rintro ⟨_, h⟩
      cases h
      rfl
  | error e => exact ⟨nofun, nofun⟩

section New

variable {inv inv' : Inventory α} {id : Nat}

theorem eq_size_of_build {source : BodySource α} {params : BodyParams α}
    (hrun : (Inventory.build source params).run inv = (.ok id, inv')) : id = inv.bodies.size := by
  have hb := Inventory.building source params inv
  rw [hrun] at hb
  cases hb with
  | entered _ _ ho _ => rw [Inventory.bodies_obtainField ho]

/-- A body that is attached is new. -/
theorem eq_size_of_attach {c c' : RobotChecker α} {link : String} {a : Attachment α}
    (hrun : (c.attach link a).run inv = (.ok (c', id), inv')) :
    (∃ g, c.geometry link = .ok g) ∧ id = inv.bodies.size := by
  rw [RobotChecker.run_attach] at hrun
  cases hg : c.geometry link with
  | error e =>
    rw [hg] at hrun
    cases hrun
  | ok g =>
    rw [hg] at hrun
    obtain ⟨r, inv₁, hattach, hr, -⟩ := Inventory.proceed_eq_ok.mp hrun
    rw [LinkGeometry.run_attach] at hattach
    obtain ⟨place, inv₂, hbuild, rfl, -⟩ := Inventory.proceed_eq_ok.mp hattach
    cases hr
    exact ⟨⟨g, rfl⟩, eq_size_of_build hbuild⟩

/-- An obstacle that is added is new. -/
theorem eq_size_of_add {w w' : WorldChecker α} {name : String} {shape : ShapeSource α} {pose : PoseSource α}
    (hrun : (w.add name shape pose).run inv = (.ok (w', id), inv')) : id = inv.bodies.size := by
  rw [WorldChecker.run_add_eq] at hrun
  split at hrun
  · obtain ⟨place, inv₁, hbuild, hr, -⟩ := Inventory.proceed_eq_ok.mp hrun
    cases hr
    exact eq_size_of_build hbuild
  · cases hrun

end New

/-- A body that an action gives out is new, and it is held then. -/
theorem body?_of_deed? (hs : s.Kept models hand) (a : Action α) {id : Nat}
    (hid : (s.deed? a).bind Deed.body? = some id) : id = s.inventory.bodies.size ∧ id ∈ (s.step a).held := by
  obtain ⟨deed, hdeed, hbody⟩ := Option.bind_eq_some_iff.mp hid
  cases a with
  | attach j link a =>
    have hgeometry := geometryAt_step hs (.attach j link a) j link
    rw [hdeed] at hgeometry
    obtain ⟨⟨c', place⟩, hr, rfl⟩ := Option.map_eq_some_iff.mp hdeed
    cases hbody
    obtain ⟨c, hc, hr⟩ := Option.bind_eq_some_iff.mp hr
    obtain ⟨inv, hrun⟩ := outcome_eq_some.mp hr
    obtain ⟨⟨g, hg⟩, hplace⟩ := eq_size_of_attach hrun
    have hold : s.geometryAt j link = some g := by
      rw [geometryAt, hc]
      exact RobotChecker.find?_of_geometry hg
    rw [hold, Option.map_some, Option.bind_some, Deed.onLink, if_pos ⟨rfl, rfl⟩] at hgeometry
    refine ⟨hplace, mem_held_of_geometryAt hgeometry (List.mem_append_right _ ?_)⟩
    show place ∈ (g.attached.push a.name place).values
    rw [Table.values_push]
    exact List.mem_append_right _ (List.mem_singleton_self _)
  | add j name shape pose =>
    have hworld := worlds_step s (.add j name shape pose) j
    rw [hdeed] at hworld
    obtain ⟨⟨w', place⟩, hr, rfl⟩ := Option.map_eq_some_iff.mp hdeed
    cases hbody
    obtain ⟨w, hw, hr⟩ := Option.bind_eq_some_iff.mp hr
    obtain ⟨inv, hrun⟩ := outcome_eq_some.mp hr
    rw [hw, Option.map_some, Option.bind_some, Deed.onWorld, if_pos rfl] at hworld
    refine ⟨eq_size_of_add hrun, mem_held_of_world hworld ?_⟩
    show place ∈ (w.objects.set name place).values
    exact Table.mem_values_of_find? (k := name) ((Table.find?_set ..).trans (if_pos rfl))
  | detach j link name =>
    obtain ⟨_, -, rfl⟩ := Option.map_eq_some_iff.mp hdeed
    cases hbody
  | detachAll j link =>
    obtain ⟨_, -, rfl⟩ := Option.map_eq_some_iff.mp hdeed
    cases link <;> cases hbody
  | remove j name =>
    obtain ⟨_, -, rfl⟩ := Option.map_eq_some_iff.mp hdeed
    cases hbody
  | clear j =>
    obtain ⟨_, -, rfl⟩ := Option.map_eq_some_iff.mp hdeed
    cases hbody
  | release body => cases hdeed

/-- Bodies that were given out before an exchange and are held no more after it are released. -/
theorem Owned.released_of_exchange (h : Owned log s) {s' : Checkers α}
    (he : Inventory.Exchange s.inventory s'.inventory s.held s'.held) {id : Nat}
    (hid : id ∈ log.filterMap Deed.body?) (hheld : id ∉ s'.held) {b : Body α}
    (hb : s'.inventory.body? id = some b) : b.isReleased = true := by
  have hlt := h.present id hid
  by_cases hold : id ∈ s.held
  · exact he.given id hold hheld hlt b hb
  · rw [he.others id hlt hold] at hb
    exact h.released id hid hold b hb

/-- Bodies that were given out before an action and are held no more after it are released. -/
theorem Owned.released_step (hs : s.Kept models hand) (h : Owned log s) {a : Action α} (ha : a.Checked) {id : Nat}
    (hid : id ∈ log.filterMap Deed.body?) (hheld : id ∉ (s.step a).held) {b : Body α}
    (hb : (s.step a).inventory.body? id = some b) : b.isReleased = true := by
  cases a with
  | release body =>
    have hbody : (s.inventory.releaseBody body).body? id = some b := hb
    rw [Inventory.body?_releaseBody] at hbody
    split at hbody
    · obtain ⟨_, -, rfl⟩ := Option.map_eq_some_iff.mp hbody
      rfl
    · exact h.released id hid hheld b hbody
  | _ => exact h.released_of_exchange (hs.exchange_step ha rfl).1 hid hheld hb

/-- One action more. -/
theorem Owned.step (hs : s.Kept models hand) (h : Owned log s) {a : Action α} (ha : a.Checked) :
    Owned (log ++ (s.deed? a).toList) (s.step a) := by
  have hs' := hs.step a ha
  have hsplit : ∀ {id}, id ∈ (log ++ (s.deed? a).toList).filterMap Deed.body? →
      id ∈ log.filterMap Deed.body? ∨ id = s.inventory.bodies.size ∧ id ∈ (s.step a).held := by
    intro id hid
    rw [filterMap_concat_toList] at hid
    exact (List.mem_append.mp hid).imp_right fun hid => body?_of_deed? hs a (Option.mem_toList.mp hid)
  have hown : ∀ i link g', (s.step a).geometryAt i link = some g' →
      ∃ g, s.geometryAt i link = some g ∧ g'.body = g.body := by
    intro i link g' hg'
    rw [geometryAt_step hs] at hg'
    obtain ⟨g, hg, rfl⟩ := Option.map_eq_some_iff.mp hg'
    exact ⟨g, hg, rfl⟩
  have hsize : s.inventory.bodies.size ≤ (s.step a).inventory.bodies.size := by
    cases a with
    | release body => exact (Inventory.size_releaseBody _ body).ge
    | _ => exact (hs.exchange_step ha rfl).1.size_le
  constructor
  · intro id hid
    rcases hsplit hid with hid | ⟨-, hheld⟩
    · exact (h.present id hid).trans_le hsize
    · exact hs'.held.present id hheld
  · rw [filterMap_concat_toList]
    refine List.nodup_append.mpr ⟨h.nodup, Option.toList_nodup _, fun id hid new hnew heq => ?_⟩
    have hlt := h.present id hid
    obtain ⟨hnew, -⟩ := body?_of_deed? hs a (Option.mem_toList.mp hnew)
    omega
  · intro id hid i link g' hg' hbody
    obtain ⟨g, hg, hsame⟩ := hown i link g' hg'
    rw [hsame] at hbody
    rcases hsplit hid with hid | ⟨hnew, -⟩
    · exact h.foreign id hid i link g hg hbody
    · have hheld : id ∈ s.held :=
        mem_held_of_geometryAt hg (List.mem_append_left _ (Option.mem_toList.mpr hbody))
      have := hs.held.present id hheld
      omega
  · intro id hid hheld b hb
    rcases hsplit hid with hid | ⟨-, hheld'⟩
    · exact h.released_step hs ha hid hheld hb
    · exact absurd hheld' hheld

/-- Whatever happens, a body that was given out and is held no more is released. -/
theorem owned_of_recorded (h : Recorded settings models hand log s) : Owned log s := by
  induction h with
  | start caches _ => exact ⟨nofun, List.nodup_nil, nofun, nofun⟩
  | @robot models hand log s m neighbours params c inv h hm hrun ih =>
    have hs := kept_of_comes ⟨_, h⟩
    obtain ⟨he, -⟩ := hs.exchange_made hm.keyed hrun
    have hmade := RobotChecker.hands_make hm.keyed neighbours params s.inventory
    rw [hrun] at hmade
    obtain ⟨hnew⟩ : Nonempty (Inventory.Exchange s.inventory inv [] c.held) := by
      cases hmade with
      | ok he _ => exact ⟨he⟩
    refine ⟨fun id hid => (ih.present id hid).trans_le he.size_le, ih.nodup, ?_, ?_⟩
    · intro id hid i link g hg hbody
      rw [geometryAt, List.getElem?_append] at hg
      split at hg
      · exact ih.foreign id hid i link g hg hbody
      · obtain ⟨c', hc', hfind⟩ := Option.bind_eq_some_iff.mp hg
        obtain rfl := List.mem_singleton.mp (List.mem_of_getElem? hc')
        have hheld : id ∈ c'.held :=
          List.mem_flatMap_of_mem (Table.mem_values_of_find? hfind)
            (List.mem_append_left _ (Option.mem_toList.mpr hbody))
        have hlt := ih.present id hid
        rcases hnew.origin id hheld with ⟨hmem, -⟩ | ⟨hge, -⟩
        · cases hmem
        · omega
    · exact fun id hid hheld b => ih.released_of_exchange he hid hheld
  | @refused models hand log s m neighbours params e inv h _ hm hrun ih =>
    have he : Inventory.Exchange s.inventory { s with inventory := inv }.inventory s.held s.held :=
      (kept_of_comes ⟨_, h⟩).exchange_refused hm.keyed hrun
    exact ⟨fun id hid => (ih.present id hid).trans_le he.size_le, ih.nodup, ih.foreign,
      fun id hid hheld b => ih.released_of_exchange he hid hheld⟩
  | @world models hand log s params _ _ ih =>
    refine ⟨ih.present, ih.nodup, ih.foreign, fun id hid hheld => ih.released id hid fun hold => hheld ?_⟩
    simpa [Checkers.held, WorldChecker.held, WorldChecker.empty] using hold
  | step a h ha ih => exact ih.step (kept_of_comes ⟨_, h⟩) ha
  | others caches _ _ ih => exact ⟨ih.present, ih.nodup, ih.foreign, ih.released⟩

/-! ## The bodies of a group -/

/-- The places of the bodies of a link: its own, if it has one, and then those attached to it. -/
def placesOf (s : Checkers α) (i : Nat) (link : String) : List Nat :=
  (s.geometryAt i link).elim [] fun g => g.body.toList ++ g.attached.values

/-- A query on links that can be placed lists their bodies link by link. -/
theorem exists_placed (hs : s.Kept models hand) {i : Nat} {c : RobotChecker α} (hc : s.robots[i]? = some c)
    {poses : LinkPoses α} {links : List String} (hcan : c.CanPlace poses links) :
    ∃ placed : List (Nat × PlacedBody α), c.placed s.inventory poses links = .ok (placed.map Prod.snd) ∧
      (placed.map fun e => (e.2.link, e.1)) =
        links.flatMap (fun link => (s.placesOf i link).map fun id => (some link, id)) ∧
      ∀ e ∈ placed, s.inventory.body? e.1 = some e.2.body := by
  refine ⟨c.marked s.inventory poses links, RobotChecker.placed_eq_ok.mpr ⟨hcan, rfl⟩, ?_, fun e he => ?_⟩
  · rw [RobotChecker.marked, List.map_flatMap]
    refine List.flatMap_congr fun link hlink => ?_
    obtain ⟨-, pose, hpose⟩ := hcan link hlink
    have hplaces : s.placesOf i link = c.bodiesOf link := by
      rw [placesOf, geometryAt, hc]
      rfl
    rw [RobotChecker.markedOn, hpose, hplaces, List.map_filterMap, ← List.filterMap_eq_map]
    refine List.filterMap_congr fun id hid => ?_
    obtain ⟨b, hb, -⟩ := hs.exists_body (List.mem_of_getElem? hc) hid
    simp [RobotChecker.placeBody, hb]
  · obtain ⟨link, -, pose, -, -, hplace⟩ := RobotChecker.mem_marked he
    exact RobotChecker.body?_of_placeBody hplace

/-- Whatever happens to checkers, of the bodies that were given out, no two of them the same, those are
    released that are stored no more, if none is released by hand. On every link there is at most one
    body under each name, in the order in which the names were attached last, and in every world at most
    one obstacle, in the order in which the names came to the world. A query on a group lists, link by
    link, the link's own body, if it has one, and then the attached ones in their order. -/
theorem keeps_in_order (h : Recorded settings models hand log s) :
    (log.filterMap Deed.body?).Nodup ∧
      (∀ id ∈ log.filterMap Deed.body?, id ∉ hand →
        ∃ b, s.inventory.body? id = some b ∧ (b.isReleased = true ↔ id ∉ s.stored)) ∧
      (∀ i link g, s.geometryAt i link = some g →
        Store.IsQueue (log.filterMap (Deed.onLink i link)) g.attached) ∧
      (∀ i w, s.worlds[i]? = some w → Store.IsShelf (log.filterMap (Deed.onWorld i)) w.objects) ∧
      ∀ i c made m root past st name links, s.robots[i]? = some c → models[i]? = some made → m.Grown →
        m.links = made.links → RobotState.Run m root past st → RobotChecker.group m name = .ok links →
        ∃ placed : List (Nat × PlacedBody α),
          c.placed s.inventory (st.linkPose m) links = .ok (placed.map Prod.snd) ∧
          (placed.map fun e => (e.2.link, e.1)) =
            links.flatMap (fun link => (s.placesOf i link).map fun id => (some link, id)) ∧
          ∀ e ∈ placed, s.inventory.body? e.1 = some e.2.body := by
  have hs := kept_of_comes ⟨_, h⟩
  have howned := owned_of_recorded h
  have hstored := stored_of_recorded h
  refine ⟨howned.nodup, fun id hid hhand => ?_, fun i link g hg => ?_, fun i w hw => ?_, ?_⟩
  · have hbody : s.inventory.body? id = some _ := Array.getElem?_eq_getElem (howned.present id hid)
    refine ⟨_, hbody, fun hreleased hkept => ?_, fun hgone => ?_⟩
    · obtain ⟨b, hb, hby⟩ := hs.released id (mem_held_of_mem_stored hkept)
      rw [hbody] at hb
      cases hb
      exact hhand (hby hreleased)
    · refine howned.released id hid (fun hheld => ?_) _ hbody
      rcases mem_stored_of_mem_held hheld with hkept | ⟨i, link, g, hg, hown⟩
      · exact hgone hkept
      · exact howned.foreign id hid i link g hg hown
  · rw [hstored.attached i link g hg]
    exact Store.isQueue_queue _
  · rw [hstored.objects i w hw]
    exact Store.isShelf_shelf _
  · intro i c made m root past st name links hc hmade hm hsame hst hlinks
    exact exists_placed hs hc (hs.canPlace hc hmade hm hsame hst hlinks)

section Cubes

/-- The twin of the base can be attached to it, however often. -/
theorem exists_attach_twin_to {g : LinkGeometry ℝ} (hg : g.params = aloneParams) {inv : Inventory ℝ}
    (hsettings : inv.settings = .standard) :
    ∃ inv', (g.attach twin).run inv =
        (.ok ({ g with attached := g.attached.push "base" inv.bodies.size }, inv.bodies.size), inv') ∧
      inv'.settings = .standard ∧ inv'.bodies.size = inv.bodies.size + 1 := by
  have hshapes : Inventory.placedShapes (g.source twin) = .ok [⟨DistanceField.cube, .origin⟩] := rfl
  have hrole : (g.source twin).role = .ok (.attached g.link []) := rfl
  obtain ⟨b, content, inv₁, -, -, hbodies, hsame, hbuild⟩ := exists_build_cube hshapes hrole inv hsettings
  have hreplacing : (g.replacing twin inv₁).settings = inv₁.settings ∧
      (g.replacing twin inv₁).bodies.size = inv₁.bodies.size := by
    unfold LinkGeometry.replacing
    split
    · exact ⟨Inventory.settings_releaseBody inv₁ _, Inventory.size_releaseBody inv₁ _⟩
    · exact ⟨rfl, rfl⟩
  rw [LinkGeometry.run_attach, hg, hbuild]
  refine ⟨_, rfl, hreplacing.1.trans (hsame.trans hsettings), hreplacing.2.trans ?_⟩
  rw [hbodies, Array.size_push]

/-- The log of attaching the twin of the base twice. -/
def twiceAttached : List Deed := [.attached 0 "base" "base" 2, .attached 0 "base" "base" 3]

/-- The checker after that. -/
noncomputable def twiceTwinned : RobotChecker ℝ :=
  cubesChecker.setGeometry ⟨"base", some 0, (Table.empty.push "base" 2).push "base" 3, aloneParams⟩

/-- The twin of the base is attached to one of the two cubes. -/
theorem step_attach_twin {c c' : RobotChecker ℝ} {id : Nat} {inv inv' : Inventory ℝ}
    (hrun : (c.attach "base" twin).run inv = (.ok (c', id), inv')) :
    Checkers.step ⟨inv, [c], []⟩ (.attach 0 "base" twin) = ⟨inv', [c'], []⟩ ∧
      Checkers.deed? ⟨inv, [c], []⟩ (.attach 0 "base" twin) = some (.attached 0 "base" "base" id) := by
  have hc : [c][0]? = some c := rfl
  constructor
  · rw [step, onRobot, hc, Option.elim_some, after, hrun]
    rfl
  · rw [deed?, outcomeOnRobot, hc, Option.bind_some, outcome_eq_some.mpr ⟨inv', hrun⟩]
    rfl

theorem recorded_twiceAttached :
    ∃ inv, Recorded .standard [cubes] [] twiceAttached ⟨inv, [twiceTwinned], []⟩ := by
  obtain ⟨base, tool, inside, outside, inv, -, -, hbodies, hsettings, hmake⟩ := exists_make_standard_cubes
  let bare : LinkGeometry ℝ := ⟨"base", some 0, Table.empty, aloneParams⟩
  let once : LinkGeometry ℝ := ⟨"base", some 0, Table.empty.push "base" 2, aloneParams⟩
  have hsize : inv.bodies.size = 2 := by
    rw [hbodies]
    rfl
  obtain ⟨inv₁, hattach₁, hsettings₁, hsize₁⟩ := exists_attach_twin_to (g := bare) rfl hsettings
  obtain ⟨inv₂, hattach₂, -, -⟩ := exists_attach_twin_to (g := once) rfl hsettings₁
  rw [hsize] at hattach₁ hsize₁
  rw [hsize₁] at hattach₂
  have hrun₁ : (cubesChecker.attach "base" twin).run inv = (.ok (twinnedChecker, 2), inv₁) := by
    rw [RobotChecker.run_attach, show cubesChecker.geometry "base" = .ok bare from rfl]
    dsimp only
    rw [hattach₁]
    rfl
  have hrun₂ : (twinnedChecker.attach "base" twin).run inv₁ = (.ok (twiceTwinned, 3), inv₂) := by
    rw [RobotChecker.run_attach, show twinnedChecker.geometry "base" = .ok once from rfl]
    dsimp only
    rw [hattach₂]
    rfl
  obtain ⟨hstep₁, hdeed₁⟩ := step_attach_twin hrun₁
  obtain ⟨hstep₂, hdeed₂⟩ := step_attach_twin hrun₂
  have honce := (recorded_cubes hmake).step (.attach 0 "base" twin) trivial
  rw [hstep₁, hdeed₁] at honce
  have htwice := honce.step (.attach 0 "base" twin) trivial
  rw [hstep₂, hdeed₂] at htwice
  exact ⟨inv₂, htwice⟩

/-- Of two twins of the base that are attached one after the other the first is released, and the second
    stands behind the base among the bodies of the robot. -/
theorem keeps_in_order_cubes : ∃ inv, Recorded .standard [cubes] [] twiceAttached ⟨inv, [twiceTwinned], []⟩ ∧
    RobotState.Run cubes .absent [] cubesState ∧
    RobotChecker.group cubes none = .ok ["base", "tool"] ∧
    (∃ b, inv.body? 2 = some b ∧ b.isReleased = true) ∧ (∃ b, inv.body? 3 = some b ∧ b.isReleased = false) ∧
    ∃ placed : List (Nat × PlacedBody ℝ),
      twiceTwinned.placed inv (cubesState.linkPose cubes) ["base", "tool"] = .ok (placed.map Prod.snd) ∧
      (placed.map fun e => (e.2.link, e.1)) = [(some "base", 0), (some "base", 3), (some "tool", 1)] := by
  obtain ⟨inv, hrecorded⟩ := recorded_twiceAttached
  have hrun : RobotState.Run cubes .absent [] cubesState := .start atDefaults_cubes
  have hstored : stored ⟨inv, [twiceTwinned], []⟩ = [3] := rfl
  obtain ⟨-, hreleased, -, -, hgroup⟩ := keeps_in_order hrecorded
  obtain ⟨first, hfirst, hgone⟩ := hreleased 2 (by simp [twiceAttached, Deed.body?]) List.not_mem_nil
  obtain ⟨second, hsecond, hkept⟩ := hreleased 3 (by simp [twiceAttached, Deed.body?]) List.not_mem_nil
  obtain ⟨placed, hplaced, hplaces, -⟩ :=
    hgroup 0 twiceTwinned cubes cubes .absent [] cubesState none ["base", "tool"] rfl rfl grown_cubes rfl hrun rfl
  refine ⟨inv, hrecorded, hrun, rfl, ⟨first, hfirst, hgone.mpr ?_⟩, ⟨second, hsecond, ?_⟩,
    placed, hplaced, hplaces⟩
  · rw [hstored]
    decide
  · rw [← Bool.not_eq_true, hkept, hstored]
    decide

end Cubes

end Clearance.Checkers
