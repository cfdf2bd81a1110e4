import Clearance.Proofs.Collision.Histories
import Clearance.Proofs.Collision.Taking
import Clearance.Proofs.Robot.JointUpdates

/-!
# Failed changes of checkers

An action on checkers that fails leaves the attached bodies, the obstacles and all bodies as they
were. It leaves the shared cache as it was too, unless it fails late: then the field that was
obtained has an owner that is no body.

* `Checkers.failure`: the error of an action, if it fails.
* `Checkers.FailsTo`, `Checkers.exists_of_failure`: what a failed action leaves.
* `Checkers.step_of_failure`: that, for all that can come about.
-/

namespace Clearance.Checkers

variable {α : Type}

/-- The error of a computation on the inventory, if it fails. -/
def failureOf {β : Type} (s : Checkers α) (x : InventoryM α β) : Option (Error α) :=
  match (x.run s.inventory).1 with
  | .ok _ => none
  | .error e => some e

theorem failureOf_eq_some {β : Type} {s : Checkers α} {x : InventoryM α β} {e : Error α} :
    s.failureOf x = some e ↔ ∃ inv, x.run s.inventory = (.error e, inv) := by
  unfold failureOf
  obtain ⟨outcome, inv⟩ := x.run s.inventory
  cases outcome with
  | ok b => exact ⟨nofun, nofun⟩
  | error e' =>
    refine ⟨fun h => ⟨inv, ?_⟩, fun ⟨_, h⟩ => ?_⟩ <;> cases h <;> rfl

/-- A failed computation on a robot checker changes the inventory alone. -/
theorem onRobot_of_failure {β : Type} {s : Checkers α} {i : Nat} {e : Error α}
    {x : RobotChecker α → InventoryM α β}
    (h : ((s.robots[i]?).bind fun c => s.failureOf (x c)) = some e)
    (result : β → RobotChecker α) :
    ∃ c inv, s.robots[i]? = some c ∧ (x c).run s.inventory = (.error e, inv) ∧
      s.onRobot i x result = { s with inventory := inv } := by
  obtain ⟨c, hc, hfailure⟩ := Option.bind_eq_some_iff.mp h
  obtain ⟨inv, hrun⟩ := failureOf_eq_some.mp hfailure
  refine ⟨c, inv, hc, hrun, ?_⟩
  rw [onRobot, hc, Option.elim_some, after, hrun]

/-- A failed computation on a world changes the inventory alone. -/
theorem onWorld_of_failure {β : Type} {s : Checkers α} {i : Nat} {e : Error α}
    {x : WorldChecker α → InventoryM α β}
    (h : ((s.worlds[i]?).bind fun w => s.failureOf (x w)) = some e)
    (result : β → WorldChecker α) :
    ∃ w inv, s.worlds[i]? = some w ∧ (x w).run s.inventory = (.error e, inv) ∧
      s.onWorld i x result = { s with inventory := inv } := by
  obtain ⟨w, hw, hfailure⟩ := Option.bind_eq_some_iff.mp h
  obtain ⟨inv, hrun⟩ := failureOf_eq_some.mp hfailure
  refine ⟨w, inv, hw, hrun, ?_⟩
  rw [onWorld, hw, Option.elim_some, after, hrun]

variable [Scalar α]

/-- The error of an action, if it fails. -/
def failure (s : Checkers α) : Action α → Option (Error α)
  | .attach i link a => (s.robots[i]?).bind fun c => s.failureOf (c.attach link a)
  | .detach i link name => (s.robots[i]?).bind fun c => s.failureOf (c.detach link name)
  | .detachAll i link => (s.robots[i]?).bind fun c => s.failureOf (c.detachAll link)
  | .add i name shape pose => (s.worlds[i]?).bind fun w => s.failureOf (w.add name shape pose)
  | .remove i name => (s.worlds[i]?).bind fun w => s.failureOf (w.remove name)
  | .clear i => (s.worlds[i]?).bind fun w => s.failureOf w.clear
  | .release body => s.failureOf (Inventory.release body)

/-- Attaching a body fails late if building it does. -/
theorem failsLate_attach_iff {s : Checkers α} {i : Nat} {link : String} {a : Attachment α}
    {c : RobotChecker α} {g : LinkGeometry α} (hc : s.robots[i]? = some c)
    (hg : c.geometry link = .ok g) :
    s.FailsLate (.attach i link a) ↔ Inventory.FailsLate (g.source a) g.params s.inventory := by
  constructor
  · rintro ⟨c', g', hc', hg', hlate⟩
    cases hc.symm.trans hc'
    cases hg.symm.trans hg'
    exact hlate
  · exact fun hlate => ⟨c, g, hc, hg, hlate⟩

/-- Adding an obstacle fails late if building it does. -/
theorem failsLate_add_iff {s : Checkers α} {i : Nat} {name : String} {shape : ShapeSource α}
    {pose : PoseSource α} {w : WorldChecker α} {p : Pose α} (hw : s.worlds[i]? = some w)
    (hp : pose.toPose = .ok p) :
    s.FailsLate (.add i name shape pose) ↔
      Inventory.FailsLate (WorldChecker.source name shape p) w.params s.inventory := by
  constructor
  · rintro ⟨w', p', hw', hp', hlate⟩
    cases hw.symm.trans hw'
    cases hp.symm.trans hp'
    exact hlate
  · exact fun hlate => ⟨w, p, hw, hp, hlate⟩

/-! ## Failed actions -/

/-- A failed action changes the inventory alone, from which it took at most one field, and that only
    if it failed late. -/
def FailsTo (s : Checkers α) (a : Action α) (inv : Inventory α) : Prop :=
  s.step a = { s with inventory := inv } ∧
    ∃ lost, Inventory.Took 0 s.inventory inv [] lost ∧ (lost = none ↔ ¬s.FailsLate a)

/-- An action that failed before it changed anything. -/
theorem failsTo_self {s : Checkers α} {a : Action α} (hstep : s.step a = s) (ha : ¬s.FailsLate a) :
    s.FailsTo a s.inventory :=
  ⟨hstep, none, Inventory.took_nothing rfl rfl rfl, iff_of_true rfl ha⟩

/-- Taking a body off fails before anything is changed. -/
theorem eq_of_detach_error {c : RobotChecker α} {link name : String} {e : Error α}
    {inv inv' : Inventory α} (h : (c.detach link name).run inv = (.error e, inv')) : inv' = inv := by
  rw [RobotChecker.run_detach] at h
  split at h
  · rw [Inventory.proceed_eq_error, LinkGeometry.run_detach] at h
    split at h <;> cases h
    rfl
  · cases h
    rfl

theorem eq_of_detachAll_error {c : RobotChecker α} {link : Option String} {e : Error α}
    {inv inv' : Inventory α} (h : (c.detachAll link).run inv = (.error e, inv')) : inv' = inv := by
  cases link with
  | some link =>
    rw [RobotChecker.run_detachAll_link] at h
    split at h <;> cases h
    rfl
  | none =>
    rw [RobotChecker.run_detachAll_all] at h
    cases h

theorem eq_of_remove_error {w : WorldChecker α} {name : String} {e : Error α}
    {inv inv' : Inventory α} (h : (w.remove name).run inv = (.error e, inv')) : inv' = inv := by
  rw [WorldChecker.run_remove] at h
  split at h <;> cases h
  rfl

section

variable [LawfulScalar α] {s : Checkers α} {e : Error α}

/-- A body that cannot be attached takes what building it takes. -/
theorem failsTo_attach (hs : s.Shared) {i : Nat} {link : String} {a : Attachment α}
    (h : s.failure (.attach i link a) = some e) : ∃ inv, s.FailsTo (.attach i link a) inv := by
  obtain ⟨c, inv, hc, hrun, hstep⟩ := onRobot_of_failure h Prod.fst
  rw [RobotChecker.run_attach] at hrun
  cases hg : c.geometry link with
  | error e' =>
    rw [hg] at hrun
    cases hrun
    refine ⟨_, failsTo_self hstep ?_⟩
    rintro ⟨c', g, hc', hg', -⟩
    cases hc.symm.trans hc'
    cases hg.symm.trans hg'
  | ok g =>
    rw [hg] at hrun
    dsimp only at hrun
    rw [Inventory.proceed_eq_error, LinkGeometry.run_attach, Inventory.proceed_eq_error] at hrun
    have hcache : g.params.cache = some 0 :=
      hs.robots c (List.mem_of_getElem? hc) g (RobotChecker.mem_of_geometry hg)
    obtain ⟨lost, htook, hlost⟩ :=
      Inventory.took_failed_build hcache (hs.inventory ▸ Nat.one_pos) hrun
    exact ⟨inv, hstep, lost, htook, hlost.trans (not_congr (failsLate_attach_iff hc hg).symm)⟩

/-- An obstacle that cannot be added takes what building it takes. -/
theorem failsTo_add (hs : s.Shared) {i : Nat} {name : String} {shape : ShapeSource α}
    {pose : PoseSource α} (h : s.failure (.add i name shape pose) = some e) :
    ∃ inv, s.FailsTo (.add i name shape pose) inv := by
  obtain ⟨w, inv, hw, hrun, hstep⟩ := onWorld_of_failure h Prod.fst
  rw [WorldChecker.run_add_eq] at hrun
  cases hp : pose.toPose with
  | error e' =>
    rw [hp] at hrun
    cases hrun
    refine ⟨_, failsTo_self hstep ?_⟩
    rintro ⟨w', p, -, hp', -⟩
    cases hp.symm.trans hp'
  | ok p =>
    rw [hp] at hrun
    dsimp only at hrun
    rw [Inventory.proceed_eq_error] at hrun
    have hcache : w.params.cache = some 0 := hs.worlds w (List.mem_of_getElem? hw)
    obtain ⟨lost, htook, hlost⟩ :=
      Inventory.took_failed_build hcache (hs.inventory ▸ Nat.one_pos) hrun
    exact ⟨inv, hstep, lost, htook, hlost.trans (not_congr (failsLate_add_iff hw hp).symm)⟩

theorem exists_of_failure (hs : s.Shared) {a : Action α} (h : s.failure a = some e) :
    ∃ inv, s.FailsTo a inv := by
  cases a with
  | attach i link a => exact failsTo_attach hs h
  | detach i link name =>
    obtain ⟨c, inv, -, hrun, hstep⟩ := onRobot_of_failure h id
    cases eq_of_detach_error hrun
    exact ⟨_, failsTo_self hstep id⟩
  | detachAll i link =>
    obtain ⟨c, inv, -, hrun, hstep⟩ := onRobot_of_failure h id
    cases eq_of_detachAll_error hrun
    exact ⟨_, failsTo_self hstep id⟩
  | add i name shape pose => exact failsTo_add hs h
  | remove i name =>
    obtain ⟨w, inv, -, hrun, hstep⟩ := onWorld_of_failure h id
    cases eq_of_remove_error hrun
    exact ⟨_, failsTo_self hstep id⟩
  | clear i =>
    obtain ⟨w, inv, -, hrun, -⟩ := onWorld_of_failure h id
    rw [WorldChecker.run_clear] at hrun
    cases hrun
  | release body =>
    have hfailure : s.failureOf (Inventory.release body) = some e := h
    obtain ⟨inv, hrun⟩ := failureOf_eq_some.mp hfailure
    rw [Inventory.run_release] at hrun
    cases hrun

end

/-! ## A cup -/

section Cup

open DistanceField (cube)

/-- A checker of the slider, whose links have no bodies of their own. -/
noncomputable def bareChecker : RobotChecker ℝ :=
  ⟨some "arm", [], Table.ofList [("base", ⟨"base", none, Table.empty, cubeParams⟩),
    ("slider", ⟨"slider", none, Table.empty, cubeParams⟩)]⟩

/-- The checker of the slider on the shared cache. -/
noncomputable def bare : Checkers ℝ :=
  ⟨(Inventory.start .standard 1).noting (.robotCreated 2 (some "arm")), [bareChecker], []⟩

theorem run_make_bare :
    (RobotChecker.make RobotState.slider (some []) cubeParams).run (Inventory.start .standard 1) =
      (.ok bareChecker, bare.inventory) := rfl

theorem arises_bare : Arises .standard bare := by
  have hstart : History .shared (.standard : Settings ℝ) [] [] [] ⟨Inventory.start .standard 1, [], []⟩ := .start 1 rfl
  exact ⟨_, _, _, hstart.robot (show cubeParams.cache = some 0 from rfl) run_make_bare⟩

/-- A cube that is to be attached, with something that is no list of names to touch. -/
noncomputable def cup : Attachment ℝ := ⟨"cup", [.shape cube], none, .error .kind⟩

/-- The cup cannot be finished, but its field has an owner by then. -/
theorem exists_build_cup : ∃ inv, bare.failure (.attach 0 "base" cup) = some (.fault .kind) ∧
    bare.step (.attach 0 "base" cup) = { bare with inventory := inv } ∧
    (inv.cache 0).owners cubeKey = 1 := by
  let g : LinkGeometry ℝ := ⟨"base", none, Table.empty, cubeParams⟩
  have hshapes : Inventory.placedShapes (g.source cup) = .ok [⟨cube, .origin⟩] := rfl
  have hspacing : Body.checkSpacing cubeParams.spacing = .ok ⟨⟩ := rfl
  obtain ⟨f, inv, hobtain, -⟩ := exists_obtainField_cube bare.inventory rfl rfl
  have hfinish : Inventory.finish (g.source cup) cubeParams [⟨cube, .origin⟩] f
      (some ⟨0, cubeKey⟩) = .error .kind := by
    have hrole : ({ g.source cup with role := .ok .link } : BodySource ℝ).role = .ok .link := rfl
    obtain ⟨b, hb⟩ := Inventory.exists_finish hrole (List.cons_ne_nil _ _)
      DistanceField.isBox_cube hspacing f (some ⟨0, cubeKey⟩)
    exact Inventory.finish_of_role rfl hb
  have hbuild := Inventory.run_build_unfinished hshapes hspacing hobtain hfinish
  have hattach : (bareChecker.attach "base" cup).run bare.inventory =
      (.error (.fault .kind), inv) := by
    rw [RobotChecker.run_attach, show bareChecker.geometry "base" = .ok g from rfl]
    dsimp only
    rw [Inventory.proceed_eq_error, LinkGeometry.run_attach, Inventory.proceed_eq_error]
    exact hbuild
  have hfailure : bare.failure (.attach 0 "base" cup) = some (.fault .kind) :=
    failureOf_eq_some.mpr ⟨inv, hattach⟩
  have hstep : bare.step (.attach 0 "base" cup) = { bare with inventory := inv } := by
    rw [step, onRobot, show bare.robots[0]? = some bareChecker from rfl, Option.elim_some, after,
      hattach]
  have hplace : 0 < bare.inventory.caches.size := Nat.one_pos
  obtain ⟨key, hkey, -, -, howners, -⟩ := Inventory.exists_lent rfl hplace hobtain
  cases hkey
  refine ⟨inv, hfailure, hstep, (howners cubeKey).trans ?_⟩
  rw [if_pos same_cubeKey]
  rfl

end Cup

/-! ## What is left -/

/-- An action that fails leaves the attached bodies of all links, the obstacles of all worlds and
    all bodies as they were. It leaves the entries of the shared cache and their owners as they were
    if and only if it does not fail late; if it does, one field has one owner more. -/
theorem step_of_failure [LawfulScalar α] (settings : Settings α) (s : Checkers α)
    (hs : Arises settings s) (a : Action α) (e : Error α) (h : s.failure a = some e) :
    let s' := s.step a
    s'.robots = s.robots ∧ s'.worlds = s.worlds ∧ s'.inventory.bodies = s.inventory.bodies ∧
      (FieldCache.SameEntries (s'.inventory.cache 0) (s.inventory.cache 0) ↔ ¬s.FailsLate a) ∧
      (s.FailsLate a → ∃ key : FieldKey α, ∀ k, (s'.inventory.cache 0).owners k =
        (s.inventory.cache 0).owners k + if key.same k then 1 else 0) := by
  obtain ⟨inv, hstep, lost, htook, hlost⟩ := exists_of_failure (shared_of_arises hs) h
  rw [hstep]
  have hbodies : inv.bodies = s.inventory.bodies :=
    Array.toList_inj.mp (htook.bodies.trans (List.append_nil _))
  refine ⟨rfl, rfl, hbodies, ?_, fun hlate => ?_⟩
  · rw [htook.same_iff, ← hlost]
    simp
  · obtain ⟨key, rfl⟩ := Option.ne_none_iff_exists'.mp (mt hlost.mp (not_not.mpr hlate))
    refine ⟨key, fun k => (htook.owners k).trans ?_⟩
    simp

/-- The cup is not attached, and there is one field more. -/
theorem step_of_failure_cup : ∃ e,
    Arises .standard bare ∧ bare.failure (.attach 0 "base" cup) = some e ∧
    let s' := bare.step (.attach 0 "base" cup)
    s'.robots = bare.robots ∧ s'.worlds = bare.worlds ∧
      s'.inventory.bodies = bare.inventory.bodies ∧
      (FieldCache.SameEntries (s'.inventory.cache 0) (bare.inventory.cache 0) ↔
        ¬bare.FailsLate (.attach 0 "base" cup)) ∧
      (bare.FailsLate (.attach 0 "base" cup) → ∃ key : FieldKey ℝ, ∀ k,
        (s'.inventory.cache 0).owners k =
          (bare.inventory.cache 0).owners k + if key.same k then 1 else 0) := by
  obtain ⟨inv, hfailure, -, -⟩ := exists_build_cup
  exact ⟨_, arises_bare, hfailure,
    step_of_failure .standard bare arises_bare (.attach 0 "base" cup) _ hfailure⟩

/-- A failed attachment can leave an owner of a field that had none. -/
theorem exists_owners_ne_of_failure : ∃ e,
    Arises .standard bare ∧ bare.failure (.attach 0 "base" cup) = some e ∧
    (bare.inventory.cache 0).owners cubeKey = 0 ∧
    ((bare.step (.attach 0 "base" cup)).inventory.cache 0).owners cubeKey = 1 := by
  obtain ⟨inv, hfailure, hstep, howners⟩ := exists_build_cup
  refine ⟨_, arises_bare, hfailure, rfl, ?_⟩
  rw [hstep]
  exact howners

end Clearance.Checkers
