import Clearance.Proofs.Collision.Holdings
import Clearance.Proofs.Stores

/-!
# What is done with the bodies of checkers

A log tells what was done with the bodies of checkers: which bodies were attached to links or added
to worlds, and which were taken off or away. What fails leaves no trace in the log. From the log
alone follows what is kept: the bodies on a link in the order in which they were attached, the latest
under each name, and the obstacles of a world in the order in which their names came to it.

* `Checkers.Deed.onLink`, `Checkers.Deed.onWorld`: the part of a log that is about a link or a world.
* `Checkers.geometryAt_step`, `Checkers.worlds_step`: what one action does to links and worlds.
* `Checkers.Stored`, `Checkers.stored_of_recorded`: links and worlds keep what the log tells.
-/

namespace Clearance

variable {α : Type}

/-! ## Links and worlds after a deed -/

/-- The bodies of a link after a deed, if there was one. -/
def LinkGeometry.told (deed? : Option (Store.Deed String Nat)) (g : LinkGeometry α) : LinkGeometry α :=
  { g with attached := deed?.elim g.attached (Store.enqueue g.attached) }

/-- A world after a deed, if there was one. -/
def WorldChecker.told (deed? : Option (Store.Deed String Nat)) (w : WorldChecker α) : WorldChecker α :=
  { w with objects := deed?.elim w.objects (Store.shelve w.objects) }

namespace Checkers

/-! ## Logs -/

namespace Deed

/-- The body that was given out. -/
def body? : Deed → Option Nat
  | .attached _ _ _ id => some id
  | .added _ _ id => some id
  | _ => none

/-- What was done with the bodies attached to a link. -/
def onLink (i : Nat) (link : String) : Deed → Option (Store.Deed String Nat)
  | .attached i' link' name id => if i' = i ∧ link' = link then some (.put name id) else none
  | .detached i' link' name => if i' = i ∧ link' = link then some (.drop name) else none
  | .detachedFrom i' link' => if i' = i ∧ link' = link then some .clear else none
  | .detachedAll i' => if i' = i then some .clear else none
  | _ => none

/-- What was done with the obstacles of a world. -/
def onWorld (i : Nat) : Deed → Option (Store.Deed String Nat)
  | .added i' name id => if i' = i then some (.put name id) else none
  | .removed i' name => if i' = i then some (.drop name) else none
  | .cleared i' => if i' = i then some .clear else none
  | _ => none

end Deed

/-- The bodies of a link of the robot checker at a place. -/
def geometryAt (s : Checkers α) (i : Nat) (link : String) : Option (LinkGeometry α) :=
  (s.robots[i]?).bind fun c => c.geometries.find? link

variable [Scalar α] {settings : Settings α} {models : List (RobotModel α)} {hand : List Nat} {log : List Deed}
  {s : Checkers α}

/-! ## What an action does to links -/

omit [Scalar α] in
/-- Other bodies attached to a link of a checker. -/
theorem find?_setGeometry_told {c : RobotChecker α} {names : List String} (hfits : c.Fits names)
    {link : String} {g : LinkGeometry α} (hg : c.geometry link = .ok g) (deed : Store.Deed String Nat)
    (link' : String) :
    (c.setGeometry (g.told (some deed))).geometries.find? link' =
      (c.geometries.find? link').map (LinkGeometry.told (if link = link' then some deed else none)) := by
  have hfind := RobotChecker.find?_of_geometry hg
  have hlink : (g.told (some deed)).link = link := hfits.link link g hfind
  rw [RobotChecker.setGeometry, Table.find?_set, hlink]
  split
  · rename_i heq
    rw [← heq, hfind]
    rfl
  · exact (Option.map_id' ..).symm

omit [Scalar α] in
/-- What a computation on one robot checker does to the links of all of them. -/
theorem geometryAt_onRobot {β : Type} {j : Nat} {x : RobotChecker α → InventoryM α β}
    {result : β → RobotChecker α} (record : β → Deed)
    (hx : ∀ c b inv, s.robots[j]? = some c → (x c).run s.inventory = (.ok b, inv) → ∀ link,
      (result b).geometries.find? link =
        (c.geometries.find? link).map (LinkGeometry.told ((record b).onLink j link)))
    (hother : ∀ b i link, j ≠ i → (record b).onLink i link = none) (i : Nat) (link : String) :
    (s.onRobot j x result).geometryAt i link = (s.geometryAt i link).map
      (LinkGeometry.told (((s.outcomeOnRobot j x).map record).bind (Deed.onLink i link))) := by
  have hsame : s.geometryAt i link = (s.geometryAt i link).map (LinkGeometry.told none) :=
    (Option.map_id' ..).symm
  unfold onRobot outcomeOnRobot
  cases hc : s.robots[j]? with
  | none => exact hsame
  | some c =>
    rw [Option.elim_some, Option.bind_some]
    unfold after outcome
    cases hrun : (x c).run s.inventory with
    | mk r inv =>
      cases r with
      | error e => exact hsame
      | ok b =>
        show ((s.robots.set j (result b))[i]?).bind _ = Option.map (LinkGeometry.told ((record b).onLink i link)) _
        by_cases hij : j = i
        · obtain rfl := hij
          rw [List.getElem?_set_self (List.getElem?_eq_some_iff.mp hc).1, geometryAt, hc]
          exact hx c b inv hc hrun link
        · rw [List.getElem?_set_ne hij, hother b i link hij]
          exact hsame

omit [Scalar α] in
theorem robots_onWorld {β : Type} (s : Checkers α) (j : Nat) (x : WorldChecker α → InventoryM α β)
    (result : β → WorldChecker α) : (s.onWorld j x result).robots = s.robots := by
  unfold onWorld
  cases s.worlds[j]? with
  | none => rfl
  | some w =>
    rw [Option.elim_some]
    unfold after
    split <;> rfl

omit [Scalar α] in
/-- What a computation on one world does to all of them. -/
theorem worlds_onWorld {β : Type} {j : Nat} {x : WorldChecker α → InventoryM α β}
    {result : β → WorldChecker α} (record : β → Deed)
    (hx : ∀ w b inv, s.worlds[j]? = some w → (x w).run s.inventory = (.ok b, inv) →
      result b = w.told ((record b).onWorld j))
    (hother : ∀ b i, j ≠ i → (record b).onWorld i = none) (i : Nat) :
    (s.onWorld j x result).worlds[i]? = (s.worlds[i]?).map
      (WorldChecker.told (((s.outcomeOnWorld j x).map record).bind (Deed.onWorld i))) := by
  have hsame : s.worlds[i]? = (s.worlds[i]?).map (WorldChecker.told none) := (Option.map_id' ..).symm
  unfold onWorld outcomeOnWorld
  cases hw : s.worlds[j]? with
  | none => exact hsame
  | some w =>
    rw [Option.elim_some, Option.bind_some]
    unfold after outcome
    cases hrun : (x w).run s.inventory with
    | mk r inv =>
      cases r with
      | error e => exact hsame
      | ok b =>
        show (s.worlds.set j (result b))[i]? = Option.map (WorldChecker.told ((record b).onWorld i)) _
        by_cases hij : j = i
        · obtain rfl := hij
          rw [List.getElem?_set_self (List.getElem?_eq_some_iff.mp hw).1, hw, hx w b inv hw hrun]
          rfl
        · rw [List.getElem?_set_ne hij, hother b i hij]
          exact hsame

omit [Scalar α] in
theorem worlds_onRobot {β : Type} (s : Checkers α) (j : Nat) (x : RobotChecker α → InventoryM α β)
    (result : β → RobotChecker α) : (s.onRobot j x result).worlds = s.worlds := by
  unfold onRobot
  cases s.robots[j]? with
  | none => rfl
  | some c =>
    rw [Option.elim_some]
    unfold after
    split <;> rfl

/-- Taking off all bodies, link by link. -/
theorem find?_detached {gs : List (LinkGeometry α)} (hgs : (gs.map LinkGeometry.link).Nodup)
    {r : RobotChecker α × Inventory α} (hfind : ∀ g ∈ gs, r.1.geometries.find? g.link = some g) (link : String) :
    (gs.foldl RobotChecker.detached r).1.geometries.find? link = (r.1.geometries.find? link).map
      (LinkGeometry.told (if link ∈ gs.map LinkGeometry.link then some .clear else none)) := by
  induction gs generalizing r with
  | nil => exact (Option.map_id' ..).symm
  | cons g rest ih =>
    obtain ⟨hlink, hrest⟩ := List.nodup_cons.mp hgs
    have hfirst : ∀ link', (RobotChecker.detached r g).1.geometries.find? link' =
        if g.link = link' then some (g.told (some .clear)) else r.1.geometries.find? link' :=
      fun link' => Table.find?_set ..
    have hother : ∀ g' ∈ rest, (RobotChecker.detached r g).1.geometries.find? g'.link = some g' := by
      intro g' hg'
      have hne : g.link ≠ g'.link := fun heq => hlink (heq ▸ List.mem_map_of_mem hg')
      rw [hfirst, if_neg hne]
      exact hfind g' (List.mem_cons_of_mem _ hg')
    rw [List.foldl_cons, ih hrest hother, hfirst]
    by_cases heq : g.link = link
    · obtain rfl := heq
      rw [if_pos rfl, if_neg hlink, if_pos (by simp), hfind g List.mem_cons_self]
      rfl
    · have hmem : link ∈ (g :: rest).map LinkGeometry.link ↔ link ∈ rest.map LinkGeometry.link := by
        rw [List.map_cons, List.mem_cons]
        exact or_iff_right fun h => heq h.symm
      simp only [if_neg heq, hmem]

section Robot

variable {c c' : RobotChecker α} {names : List String} {inv inv' : Inventory α}

theorem find?_of_attach (hfits : c.Fits names) {link : String} {a : Attachment α} {id : Nat}
    (hrun : (c.attach link a).run inv = (.ok (c', id), inv')) (link' : String) :
    c'.geometries.find? link' = (c.geometries.find? link').map
      (LinkGeometry.told (if link = link' then some (.put a.name id) else none)) := by
  rw [RobotChecker.run_attach] at hrun
  cases hg : c.geometry link with
  | error e =>
    rw [hg] at hrun
    cases hrun
  | ok g =>
    rw [hg] at hrun
    obtain ⟨r, inv₁, hattach, hr, -⟩ := Inventory.proceed_eq_ok.mp hrun
    rw [LinkGeometry.run_attach] at hattach
    obtain ⟨place, inv₂, -, rfl, -⟩ := Inventory.proceed_eq_ok.mp hattach
    cases hr
    exact find?_setGeometry_told hfits hg (.put a.name place) link'

theorem find?_of_detach (hfits : c.Fits names) {link name : String}
    (hrun : (c.detach link name).run inv = (.ok c', inv')) (link' : String) :
    c'.geometries.find? link' = (c.geometries.find? link').map
      (LinkGeometry.told (if link = link' then some (.drop name) else none)) := by
  rw [RobotChecker.run_detach] at hrun
  cases hg : c.geometry link with
  | error e =>
    rw [hg] at hrun
    cases hrun
  | ok g =>
    rw [hg] at hrun
    obtain ⟨g', inv₁, hdetach, rfl, -⟩ := Inventory.proceed_eq_ok.mp hrun
    rw [LinkGeometry.run_detach] at hdetach
    split at hdetach <;> cases hdetach
    exact find?_setGeometry_told hfits hg (.drop name) link'

theorem find?_of_detachAll (hfits : c.Fits names) {link : Option String}
    (hrun : (c.detachAll link).run inv = (.ok c', inv')) (i : Nat) (link' : String) :
    c'.geometries.find? link' =
      (c.geometries.find? link').map (LinkGeometry.told ((detachedDeed i link).onLink i link')) := by
  cases link with
  | some link =>
    rw [RobotChecker.run_detachAll_link] at hrun
    cases hg : c.geometry link with
    | error e =>
      rw [hg] at hrun
      cases hrun
    | ok g =>
      rw [hg] at hrun
      cases hrun
      rw [detachedDeed, Deed.onLink]
      simp only [true_and]
      exact find?_setGeometry_told hfits hg .clear link'
  | none =>
    rw [RobotChecker.run_detachAll_all] at hrun
    cases hrun
    have hnodup : (c.geometries.values.map LinkGeometry.link).Nodup :=
      hfits.map_link_values ▸ c.geometries.nodup_keys
    rw [find?_detached hnodup fun g => hfits.find?_link, detachedDeed, Deed.onLink, if_pos rfl,
      hfits.map_link_values]
    cases hg : c.geometries.find? link' with
    | none => rfl
    | some g =>
      rw [if_pos ((Table.contains_iff _ _).mp (Option.isSome_of_eq_some hg))]

end Robot

theorem Kept.exists_fits (hs : s.Kept models hand) {i : Nat} {c : RobotChecker α} (hc : s.robots[i]? = some c) :
    ∃ names, c.Fits names := by
  have hi : i < models.length := hs.fits.size ▸ (List.getElem?_eq_some_iff.mp hc).1
  exact ⟨_, hs.fits.fits i c models[i] hc (List.getElem?_eq_getElem hi)⟩

theorem bind_map_eq_none {β γ δ : Type} {o : Option β} {f : β → γ} {g : γ → Option δ} (h : ∀ b, g (f b) = none) :
    (o.map f).bind g = none := by
  cases o with
  | none => rfl
  | some b => exact h b

/-- An action does to the bodies of a link what its deed says. -/
theorem geometryAt_step (hs : s.Kept models hand) (a : Action α) (i : Nat) (link : String) :
    (s.step a).geometryAt i link =
      (s.geometryAt i link).map (LinkGeometry.told ((s.deed? a).bind (Deed.onLink i link))) := by
  have hsame : ∀ s' : Checkers α, s'.robots = s.robots → (s.deed? a).bind (Deed.onLink i link) = none →
      s'.geometryAt i link =
        (s.geometryAt i link).map (LinkGeometry.told ((s.deed? a).bind (Deed.onLink i link))) := by
    intro s' hrobots hnone
    rw [hnone, geometryAt, hrobots]
    exact (Option.map_id' ..).symm
  cases a with
  | attach j place a =>
    refine geometryAt_onRobot (fun r : RobotChecker α × Nat => .attached j place a.name r.2) ?_ ?_ i link
    · intro c r inv hc hrun link
      obtain ⟨names, hfits⟩ := hs.exists_fits hc
      simpa only [Deed.onLink, true_and] using find?_of_attach hfits hrun link
    · exact fun r i link hne => if_neg fun h => hne h.1
  | detach j place name =>
    refine geometryAt_onRobot (fun _ => .detached j place name) ?_ ?_ i link
    · intro c c' inv hc hrun link
      obtain ⟨names, hfits⟩ := hs.exists_fits hc
      simpa only [Deed.onLink, true_and, id_eq] using find?_of_detach hfits hrun link
    · exact fun _ i link hne => if_neg fun h => hne h.1
  | detachAll j place =>
    refine geometryAt_onRobot (fun _ => detachedDeed j place) ?_ ?_ i link
    · intro c c' inv hc hrun link
      obtain ⟨names, hfits⟩ := hs.exists_fits hc
      exact find?_of_detachAll hfits hrun j link
    · intro _ i link hne
      cases place with
      | some place => exact if_neg fun h => hne h.1
      | none => exact if_neg hne
  | add j name shape pose => exact hsame _ (robots_onWorld ..) (bind_map_eq_none fun _ => rfl)
  | remove j name => exact hsame _ (robots_onWorld ..) (bind_map_eq_none fun _ => rfl)
  | clear j => exact hsame _ (robots_onWorld ..) (bind_map_eq_none fun _ => rfl)
  | release body => exact hsame _ rfl rfl

/-! ## What an action does to worlds -/

section World

variable {w w' : WorldChecker α} {inv inv' : Inventory α}

theorem told_of_add {name : String} {shape : ShapeSource α} {pose : PoseSource α} {id : Nat}
    (hrun : (w.add name shape pose).run inv = (.ok (w', id), inv')) : w' = w.told (some (.put name id)) := by
  rw [WorldChecker.run_add_eq] at hrun
  split at hrun
  · obtain ⟨place, inv₁, -, hr, -⟩ := Inventory.proceed_eq_ok.mp hrun
    cases hr
    rfl
  · cases hrun

theorem told_of_remove {name : String} (hrun : (w.remove name).run inv = (.ok w', inv')) :
    w' = w.told (some (.drop name)) := by
  rw [WorldChecker.run_remove] at hrun
  split at hrun <;> cases hrun
  rfl

theorem told_of_clear (hrun : w.clear.run inv = (.ok w', inv')) : w' = w.told (some .clear) := by
  rw [WorldChecker.run_clear] at hrun
  cases hrun
  rfl

end World

/-- An action does to a world what its deed says. -/
theorem worlds_step (s : Checkers α) (a : Action α) (i : Nat) :
    (s.step a).worlds[i]? = (s.worlds[i]?).map (WorldChecker.told ((s.deed? a).bind (Deed.onWorld i))) := by
  have hsame : ∀ s' : Checkers α, s'.worlds = s.worlds → (s.deed? a).bind (Deed.onWorld i) = none →
      s'.worlds[i]? = (s.worlds[i]?).map (WorldChecker.told ((s.deed? a).bind (Deed.onWorld i))) := by
    intro s' hworlds hnone
    rw [hnone, hworlds]
    exact (Option.map_id' ..).symm
  cases a with
  | attach j place a => exact hsame _ (worlds_onRobot ..) (bind_map_eq_none fun _ => rfl)
  | detach j place name => exact hsame _ (worlds_onRobot ..) (bind_map_eq_none fun _ => rfl)
  | detachAll j place => exact hsame _ (worlds_onRobot ..) (bind_map_eq_none fun _ => by cases place <;> rfl)
  | add j name shape pose =>
    refine worlds_onWorld (fun r : WorldChecker α × Nat => .added j name r.2) ?_ ?_ i
    · intro w r inv _ hrun
      simpa only [Deed.onWorld, if_true] using told_of_add hrun
    · exact fun r i hne => if_neg hne
  | remove j name =>
    refine worlds_onWorld (fun _ => .removed j name) ?_ ?_ i
    · intro w w' inv _ hrun
      simpa only [Deed.onWorld, if_true, id_eq] using told_of_remove hrun
    · exact fun _ i hne => if_neg hne
  | clear j =>
    refine worlds_onWorld (fun _ => .cleared j) ?_ ?_ i
    · intro w w' inv _ hrun
      simpa only [Deed.onWorld, if_true, id_eq] using told_of_clear hrun
    · exact fun _ i hne => if_neg hne
  | release body => exact hsame _ rfl rfl

/-! ## What is stored -/

/-- Links and worlds keep what the log tells, and it tells nothing of links and worlds that are not
    there. -/
structure Stored (log : List Deed) (s : Checkers α) : Prop where
  attached : ∀ i link g, s.geometryAt i link = some g →
    g.attached = Store.queue (log.filterMap (Deed.onLink i link))
  objects : ∀ i w, s.worlds[i]? = some w → w.objects = Store.shelf (log.filterMap (Deed.onWorld i))
  robots : ∀ i link, s.robots[i]? = none → log.filterMap (Deed.onLink i link) = []
  worlds : ∀ i, s.worlds[i]? = none → log.filterMap (Deed.onWorld i) = []

omit [Scalar α] in
theorem filterMap_concat_toList {β : Type} (log : List Deed) (deed? : Option Deed) (f : Deed → Option β) :
    (log ++ deed?.toList).filterMap f = log.filterMap f ++ (deed?.bind f).toList := by
  cases deed? with
  | none => simp
  | some deed => cases h : f deed <;> simp [h]

theorem queue_concat_toList (log : List (Store.Deed String Nat)) (deed? : Option (Store.Deed String Nat)) :
    Store.queue (log ++ deed?.toList) = deed?.elim (Store.queue log) (Store.enqueue (Store.queue log)) := by
  cases deed? with
  | none => exact congrArg Store.queue (List.append_nil log)
  | some deed => exact Store.queue_concat

theorem shelf_concat_toList (log : List (Store.Deed String Nat)) (deed? : Option (Store.Deed String Nat)) :
    Store.shelf (log ++ deed?.toList) = deed?.elim (Store.shelf log) (Store.shelve (Store.shelf log)) := by
  cases deed? with
  | none => exact congrArg Store.shelf (List.append_nil log)
  | some deed => exact Store.shelf_concat

theorem bind_onLink_eq_none {i : Nat} (hi : s.robots[i]? = none) (a : Action α) (link : String) :
    (s.deed? a).bind (Deed.onLink i link) = none := by
  have hrobot : ∀ {β : Type} (j : Nat) (x : RobotChecker α → InventoryM α β) (record : β → Deed),
      (∀ b, j ≠ i → (record b).onLink i link = none) →
      ((s.outcomeOnRobot j x).map record).bind (Deed.onLink i link) = none := by
    intro β j x record hother
    by_cases hij : j = i
    · rw [outcomeOnRobot, hij, hi]
      rfl
    · exact bind_map_eq_none fun b => hother b hij
  cases a with
  | attach j place a => exact hrobot j _ _ fun _ hne => if_neg fun h => hne h.1
  | detach j place name => exact hrobot j _ _ fun _ hne => if_neg fun h => hne h.1
  | detachAll j place =>
    refine hrobot j _ _ fun _ hne => ?_
    cases place with
    | some place => exact if_neg fun h => hne h.1
    | none => exact if_neg hne
  | add j name shape pose => exact bind_map_eq_none fun _ => rfl
  | remove j name => exact bind_map_eq_none fun _ => rfl
  | clear j => exact bind_map_eq_none fun _ => rfl
  | release body => rfl

theorem bind_onWorld_eq_none {i : Nat} (hi : s.worlds[i]? = none) (a : Action α) :
    (s.deed? a).bind (Deed.onWorld i) = none := by
  have hworld : ∀ {β : Type} (j : Nat) (x : WorldChecker α → InventoryM α β) (record : β → Deed),
      (∀ b, j ≠ i → (record b).onWorld i = none) →
      ((s.outcomeOnWorld j x).map record).bind (Deed.onWorld i) = none := by
    intro β j x record hother
    by_cases hij : j = i
    · rw [outcomeOnWorld, hij, hi]
      rfl
    · exact bind_map_eq_none fun b => hother b hij
  cases a with
  | attach j place a => exact bind_map_eq_none fun _ => rfl
  | detach j place name => exact bind_map_eq_none fun _ => rfl
  | detachAll j place => exact bind_map_eq_none fun _ => by cases place <;> rfl
  | add j name shape pose => exact hworld j _ _ fun _ hne => if_neg hne
  | remove j name => exact hworld j _ _ fun _ hne => if_neg hne
  | clear j => exact hworld j _ _ fun _ hne => if_neg hne
  | release body => rfl

/-- One action more. -/
theorem Stored.step (hs : s.Kept models hand) (h : Stored log s) {a : Action α} (ha : a.Checked) :
    Stored (log ++ (s.deed? a).toList) (s.step a) where
  attached i link g' hg' := by
    rw [geometryAt_step hs] at hg'
    obtain ⟨g, hg, rfl⟩ := Option.map_eq_some_iff.mp hg'
    rw [filterMap_concat_toList, queue_concat_toList, ← h.attached i link g hg]
    rfl
  objects i w' hw' := by
    rw [worlds_step] at hw'
    obtain ⟨w, hw, rfl⟩ := Option.map_eq_some_iff.mp hw'
    rw [filterMap_concat_toList, shelf_concat_toList, ← h.objects i w hw]
    rfl
  robots i link hi := by
    have hnone : s.robots[i]? = none := by
      have hsize : (s.step a).robots.length = s.robots.length := (hs.step a ha).fits.size.trans hs.fits.size.symm
      rw [List.getElem?_eq_none_iff] at hi ⊢
      omega
    rw [filterMap_concat_toList, h.robots i link hnone, bind_onLink_eq_none hnone]
    rfl
  worlds i hi := by
    rw [worlds_step] at hi
    have hnone : s.worlds[i]? = none := Option.map_eq_none_iff.mp hi
    rw [filterMap_concat_toList, h.worlds i hnone, bind_onWorld_eq_none hnone]
    rfl

theorem attached_of_makeGeometries {params : BodyParams α} {ls : List (Link α)} {gs : List (LinkGeometry α)}
    {inv inv' : Inventory α} (hrun : (RobotChecker.makeGeometries params ls).run inv = (.ok gs, inv')) :
    ∀ g ∈ gs, g.attached = Table.empty := by
  induction ls generalizing gs inv inv' with
  | nil =>
    cases hrun
    exact fun g hg => absurd hg List.not_mem_nil
  | cons l rest ih =>
    rw [RobotChecker.run_makeGeometries_cons] at hrun
    split at hrun
    · rename_i g inv₁ hg
      obtain ⟨gs', inv₂, hrest, rfl, -⟩ := Inventory.proceed_eq_ok.mp hrun
      intro g' hg'
      rcases List.mem_cons.mp hg' with rfl | hg'
      · rw [RobotChecker.makeGeometry, LinkGeometry.run_make] at hg
        split at hg
        · cases hg
          rfl
        · obtain ⟨id, inv₃, -, rfl, -⟩ := Inventory.proceed_eq_ok.mp hg
          rfl
      · exact ih hrest g' hg'
    · cases hrun

/-- To a new checker nothing is attached. -/
theorem attached_of_make {m : RobotModel α} {neighbours : Option (List (String × String))}
    {params : BodyParams α} {c : RobotChecker α} {inv inv' : Inventory α}
    (hrun : (RobotChecker.make m neighbours params).run inv = (.ok c, inv')) {g : LinkGeometry α}
    (hg : g ∈ c.geometries.values) : g.attached = Table.empty := by
  rw [RobotChecker.run_make] at hrun
  split at hrun
  · obtain ⟨gs, inv₁, hgs, rfl, -⟩ := Inventory.proceed_eq_ok.mp hrun
    exact attached_of_makeGeometries hgs g (RobotChecker.mem_of_mem_ofList hg)
  · cases hrun

/-- Whatever happens, links and worlds keep what the log tells. -/
theorem stored_of_recorded (h : Recorded settings models hand log s) : Stored log s := by
  induction h with
  | start caches _ =>
    exact ⟨fun i link g hg => by simp [geometryAt] at hg, fun i w hw => by simp at hw,
      fun _ _ _ => rfl, fun _ _ => rfl⟩
  | @robot models hand log s m neighbours params c inv _ hm hrun ih =>
    refine ⟨fun i link g hg => ?_, ih.objects, fun i link hi => ?_, ih.worlds⟩
    · rw [geometryAt, List.getElem?_append] at hg
      split at hg
      · exact ih.attached i link g hg
      · rename_i hlt
        obtain ⟨c', hc', hfind⟩ := Option.bind_eq_some_iff.mp hg
        obtain rfl := List.mem_singleton.mp (List.mem_of_getElem? hc')
        rw [attached_of_make hrun (Table.mem_values_of_find? hfind),
          ih.robots i link (List.getElem?_eq_none_iff.mpr (not_lt.mp hlt))]
        rfl
    · rw [List.getElem?_append] at hi
      split at hi
      · exact ih.robots i link hi
      · rename_i hlt
        exact ih.robots i link (List.getElem?_eq_none_iff.mpr (not_lt.mp hlt))
  | refused _ _ _ _ ih => exact ⟨ih.attached, ih.objects, ih.robots, ih.worlds⟩
  | @world models hand log s params _ _ ih =>
    refine ⟨ih.attached, fun i w hw => ?_, ih.robots, fun i hi => ?_⟩
    · rw [List.getElem?_append] at hw
      split at hw
      · exact ih.objects i w hw
      · rename_i hlt
        obtain rfl := List.mem_singleton.mp (List.mem_of_getElem? hw)
        rw [ih.worlds i (List.getElem?_eq_none_iff.mpr (not_lt.mp hlt))]
        rfl
    · rw [List.getElem?_append] at hi
      split at hi
      · exact ih.worlds i hi
      · rename_i hlt
        exact ih.worlds i (List.getElem?_eq_none_iff.mpr (not_lt.mp hlt))
  | step a h ha ih => exact ih.step (kept_of_comes ⟨_, h⟩) ha
  | others caches _ _ ih => exact ⟨ih.attached, ih.objects, ih.robots, ih.worlds⟩

end Checkers

end Clearance
