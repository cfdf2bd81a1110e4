import Clearance.Proofs.Collision.Holdings
import Clearance.Proofs.Robot.MovedStates

/-!
# Histories of checkers in a moved world

Only obstacles stand in the world; the bodies of links are seen from their links. A history in the
moved world adds every obstacle where a rigid motion takes it. It comes to the same checkers on the
same inventory, except for the poses of the obstacles, and it fails wherever the other one does.

* `Body.moved`, `Inventory.moved`, `Checkers.moved`: what a motion does to obstacles.
* `Inventory.Parallel`: computations that do the same in both worlds, with one rule for each
  operation on checkers.
* `Checkers.step_moved`, `Checkers.comes_moved`: actions and histories.
-/

namespace Clearance

variable {g : Pose ℝ}

/-! ## Moved obstacles -/

/-- A role in the moved world. -/
noncomputable def BodyRole.moved (role : BodyRole ℝ) (g : Pose ℝ) : BodyRole ℝ :=
  match role with
  | .obstacle pose => .obstacle (pose.moved g)
  | role => role

/-- A body in the moved world. -/
noncomputable def Body.moved (b : Body ℝ) (g : Pose ℝ) : Body ℝ := { b with role := b.role.moved g }

/-- What a body is to be built of in the moved world. -/
noncomputable def BodySource.moved (source : BodySource ℝ) (g : Pose ℝ) : BodySource ℝ :=
  { source with role := source.role.map (·.moved g) }

namespace Inventory

/-- An inventory in the moved world. -/
noncomputable def moved (inv : Inventory ℝ) (g : Pose ℝ) : Inventory ℝ :=
  { inv with bodies := inv.bodies.map (·.moved g) }

theorem body?_moved (inv : Inventory ℝ) (id : Nat) : (inv.moved g).body? id = (inv.body? id).map (·.moved g) :=
  Array.getElem?_map

theorem releaseBody_moved (inv : Inventory ℝ) (id : Nat) :
    (inv.moved g).releaseBody id = (inv.releaseBody id).moved g := by
  unfold releaseBody
  rw [body?_moved]
  cases inv.body? id with
  | none => rfl
  | some b =>
    rw [Option.map_some]
    dsimp only
    rw [show (b.moved g).hold? = b.hold? from rfl]
    cases b.hold? with
    | none =>
      dsimp only [moved]
      rw [Array.map_setIfInBounds]
      rfl
    | some h =>
      dsimp only [moved, dropHold]
      rw [Array.map_setIfInBounds]
      rfl

/-! ## Computations in both worlds -/

/-- Two computations give the same on an inventory and on the moved one, and leave an inventory and
    the moved one. -/
def Parallel {β : Type} (g : Pose ℝ) (x' x : InventoryM ℝ β) : Prop :=
  ∀ inv, x'.run (inv.moved g) = ((x.run inv).1, (x.run inv).2.moved g)

namespace Parallel

variable {β γ : Type}

theorem pure (b : β) : Parallel g (pure b) (pure b) := fun _ => rfl

theorem lift (x : Except (Error ℝ) β) : Parallel g (liftM x) (liftM x) := fun _ => rfl

theorem bind {x' x : InventoryM ℝ β} {f' f : β → InventoryM ℝ γ} (hx : Parallel g x' x)
    (hf : ∀ b, Parallel g (f' b) (f b)) : Parallel g (x' >>= f') (x >>= f) := by
  intro inv
  rw [run_bind, run_bind, hx]
  obtain ⟨e | b, inv'⟩ := x.run inv
  · rfl
  · exact hf b inv'

/-- The same where the first results, looked up or checked, differ by a function. -/
theorem lift_map_bind {δ : Type} {x : Except (Error ℝ) β} {j : β → δ} {f' : δ → InventoryM ℝ γ}
    {f : β → InventoryM ℝ γ} (hf : ∀ b, Parallel g (f' (j b)) (f b)) :
    Parallel g (liftM (x.map j) >>= f') (liftM x >>= f) := by
  cases x with
  | error e => exact fun _ => rfl
  | ok b => exact hf b

theorem report (e : Event ℝ) : Parallel g (Inventory.report e) (Inventory.report e) := fun _ => rfl

theorem release (id : Nat) : Parallel g (Inventory.release id) (Inventory.release id) := by
  intro inv
  rw [run_release, run_release, releaseBody_moved]

theorem forM_release (ids : List Nat) :
    Parallel g (ids.forM Inventory.release) (ids.forM Inventory.release) := by
  induction ids with
  | nil => exact pure ()
  | cons id rest ih => exact bind (release id) fun _ => ih

theorem mapM {f : β → InventoryM ℝ γ} (hf : ∀ b, Parallel g (f b) (f b)) (bs : List β) :
    Parallel g (bs.mapM f) (bs.mapM f) := by
  induction bs with
  | nil => exact pure []
  | cons b rest ih =>
    rw [List.mapM_cons]
    exact bind (hf b) fun c => bind ih fun cs => pure (c :: cs)

theorem foldlM {f : γ → β → InventoryM ℝ γ} (hf : ∀ c b, Parallel g (f c b) (f c b)) (bs : List β)
    (c : γ) : Parallel g (bs.foldlM f c) (bs.foldlM f c) := by
  induction bs generalizing c with
  | nil => exact pure c
  | cons b rest ih => exact bind (hf c b) ih

/-- Fields are seen from the bodies that own them. -/
theorem obtainField (shapes : List (PlacedShape ℝ)) (params : BodyParams ℝ) :
    Parallel g (Inventory.obtainField shapes params) (Inventory.obtainField shapes params) := by
  intro inv
  cases hc : params.cache with
  | none => rw [obtainField_alone _ shapes hc, obtainField_alone _ shapes hc]; rfl
  | some id => rw [obtainField_kept _ shapes hc, obtainField_kept _ shapes hc]; rfl

theorem enter (b : Body ℝ) : Parallel g (Inventory.enter (b.moved g)) (Inventory.enter b) := by
  intro inv
  refine Prod.ext (congrArg Except.ok ?_) ?_
  · exact Array.size_map
  · exact congrArg (fun bodies => { inv with bodies := bodies }) Array.map_push.symm

theorem build (source : BodySource ℝ) (params : BodyParams ℝ) :
    Parallel g (Inventory.build (source.moved g) params) (Inventory.build source params) := by
  refine bind (lift _) fun shapes => bind (lift _) fun _ => bind (obtainField shapes params) fun got => ?_
  have hfinish : finish (source.moved g) params shapes got.1 got.2 =
      (finish source params shapes got.1 got.2).map (·.moved g) :=
    bind_eq_map fun spacing => bind_eq_map fun samples => bind_eq_map fun sphere =>
      map_bind_eq_map fun role => rfl
  dsimp only
  rw [hfinish]
  cases finish source params shapes got.1 got.2 with
  | error f => exact fun _ => rfl
  | ok b => exact enter b

end Parallel

end Inventory

open Inventory (Parallel)

/-! ## Operations on checkers -/

namespace LinkGeometry

theorem parallel_make (link : String) (shapes : List (ShapeSource ℝ)) (poses : Option (List (PoseSource ℝ)))
    (params : BodyParams ℝ) : Parallel g (make link shapes poses params) (make link shapes poses params) := by
  unfold make
  split
  · exact .pure _
  · exact .bind (.build (ownSource link shapes poses) params) fun id => .pure _

theorem parallel_attach (geometry : LinkGeometry ℝ) (a : Attachment ℝ) :
    Parallel g (geometry.attach a) (geometry.attach a) := by
  have hsource : (geometry.source a).moved g = geometry.source a := by
    unfold source BodySource.moved
    cases a.touch <;> rfl
  have hbuild := Parallel.build (g := g) (geometry.source a) geometry.params
  rw [hsource] at hbuild
  refine .bind hbuild fun id => ?_
  dsimp only
  cases geometry.attached.find? a.name with
  | none => exact .bind (.report _) fun _ => .pure _
  | some previous =>
    exact .bind (.release previous) fun _ => .bind (.report _) fun _ => .bind (.report _) fun _ => .pure _

theorem parallel_detach (geometry : LinkGeometry ℝ) (name : String) :
    Parallel g (geometry.detach name) (geometry.detach name) :=
  .bind (.lift _) fun id => .bind (.release id) fun _ => .bind (.report _) fun _ => .pure _

theorem parallel_detachAll (geometry : LinkGeometry ℝ) : Parallel g geometry.detachAll geometry.detachAll :=
  .bind (.forM_release _) fun _ => .pure _

end LinkGeometry

namespace RobotChecker

theorem parallel_make (m : RobotModel ℝ) (neighbours : Option (List (String × String))) (params : BodyParams ℝ) :
    Parallel g (make m neighbours params) (make m neighbours params) :=
  .bind (.lift _) fun _ => .bind (.mapM (fun _ => LinkGeometry.parallel_make _ _ _ _) _) fun _ =>
    .bind (.report _) fun _ => .pure _

theorem parallel_attach (c : RobotChecker ℝ) (link : String) (a : Attachment ℝ) :
    Parallel g (c.attach link a) (c.attach link a) :=
  .bind (.lift _) fun geometry => .bind (geometry.parallel_attach a) fun _ => .pure _

theorem parallel_detach (c : RobotChecker ℝ) (link name : String) :
    Parallel g (c.detach link name) (c.detach link name) :=
  .bind (.lift _) fun geometry => .bind (geometry.parallel_detach name) fun _ => .pure _

theorem parallel_detachAll (c : RobotChecker ℝ) (link : Option String) :
    Parallel g (c.detachAll link) (c.detachAll link) := by
  cases link with
  | some link => exact .bind (.lift _) fun geometry => .bind geometry.parallel_detachAll fun _ => .pure _
  | none => exact .foldlM (fun _ geometry => .bind geometry.parallel_detachAll fun _ => .pure _) _ c

end RobotChecker

namespace WorldChecker

/-- An obstacle is added where the motion takes it. -/
theorem parallel_add (w : WorldChecker ℝ) (name : String) (shape : ShapeSource ℝ) (pose : PoseSource ℝ) :
    Parallel g (w.add name shape (pose.moved g)) (w.add name shape pose) := by
  refine .lift_map_bind fun p => .bind (.build (source name shape p) w.params) fun id => ?_
  dsimp only
  cases w.objects.find? name with
  | none => exact .bind (.report _) fun _ => .pure _
  | some previous => exact .bind (.release previous) fun _ => .bind (.report _) fun _ => .pure _

theorem parallel_remove (w : WorldChecker ℝ) (name : String) : Parallel g (w.remove name) (w.remove name) :=
  .bind (.lift _) fun id => .bind (.release id) fun _ => .bind (.report _) fun _ => .pure _

theorem parallel_clear (w : WorldChecker ℝ) : Parallel g w.clear w.clear :=
  .bind (.forM_release _) fun _ => .pure _

end WorldChecker

/-! ## Histories -/

namespace Checkers

/-- Checkers in the moved world. -/
noncomputable def moved (s : Checkers ℝ) (g : Pose ℝ) : Checkers ℝ := { s with inventory := s.inventory.moved g }

/-- An action in the moved world: an obstacle is added where the motion takes it. -/
noncomputable def Action.moved (g : Pose ℝ) : Action ℝ → Action ℝ
  | .add world name shape pose => .add world name shape (pose.moved g)
  | a => a

theorem after_moved {β : Type} (s : Checkers ℝ) {x' x : InventoryM ℝ β} (hx : Parallel g x' x)
    {change : β → Checkers ℝ → Checkers ℝ} (hchange : ∀ b s, change b (s.moved g) = (change b s).moved g) :
    (s.moved g).after x' change = (s.after x change).moved g := by
  unfold after
  rw [show x'.run (s.moved g).inventory = _ from hx s.inventory]
  obtain ⟨e | b, inv⟩ := x.run s.inventory
  · rfl
  · exact hchange b { s with inventory := inv }

theorem onRobot_moved {β : Type} (s : Checkers ℝ) (i : Nat) {x' x : RobotChecker ℝ → InventoryM ℝ β}
    {result : β → RobotChecker ℝ} (hx : ∀ c, Parallel g (x' c) (x c)) :
    (s.moved g).onRobot i x' result = (s.onRobot i x result).moved g := by
  unfold onRobot
  rw [show (s.moved g).robots = s.robots from rfl]
  cases s.robots[i]? with
  | none => rfl
  | some c =>
    rw [Option.elim_some, Option.elim_some]
    exact s.after_moved (hx c) fun _ _ => rfl

theorem onWorld_moved {β : Type} (s : Checkers ℝ) (i : Nat) {x' x : WorldChecker ℝ → InventoryM ℝ β}
    {result : β → WorldChecker ℝ} (hx : ∀ w, Parallel g (x' w) (x w)) :
    (s.moved g).onWorld i x' result = (s.onWorld i x result).moved g := by
  unfold onWorld
  rw [show (s.moved g).worlds = s.worlds from rfl]
  cases s.worlds[i]? with
  | none => rfl
  | some w =>
    rw [Option.elim_some, Option.elim_some]
    exact s.after_moved (hx w) fun _ _ => rfl

/-- An action in the moved world comes to the moved checkers, whether it fails or not. -/
theorem step_moved (s : Checkers ℝ) (a : Action ℝ) : (s.moved g).step (a.moved g) = (s.step a).moved g := by
  cases a with
  | attach i link a => exact s.onRobot_moved i fun c => c.parallel_attach link a
  | detach i link name => exact s.onRobot_moved i fun c => c.parallel_detach link name
  | detachAll i link => exact s.onRobot_moved i fun c => c.parallel_detachAll link
  | add i name shape pose => exact s.onWorld_moved i fun w => w.parallel_add name shape pose
  | remove i name => exact s.onWorld_moved i fun w => w.parallel_remove name
  | clear i => exact s.onWorld_moved i fun w => w.parallel_clear
  | release body =>
    show (s.moved g).after (Inventory.release body) (fun _ s' => s') = _
    exact s.after_moved (.release body) fun _ _ => rfl

/-- Any number of actions. -/
theorem foldl_step_moved (s : Checkers ℝ) (actions : List (Action ℝ)) :
    (actions.map (·.moved g)).foldl step (s.moved g) = (actions.foldl step s).moved g := by
  induction actions generalizing s with
  | nil => rfl
  | cons a rest ih =>
    rw [List.map_cons, List.foldl_cons, List.foldl_cons, step_moved]
    exact ih (s.step a)

/-- What can come about can come about in the moved world. -/
theorem comes_moved (hg : g.IsMotion) {settings : Settings ℝ} {models : List (RobotModel ℝ)} {hand : List Nat}
    {s : Checkers ℝ} (h : Comes settings models hand s) : Comes settings models hand (s.moved g) := by
  obtain ⟨log, h⟩ := h
  induction h with
  | start caches _ =>
    have hstart : (Inventory.start settings caches).moved g = Inventory.start settings caches := by
      simp [Inventory.moved, Inventory.start]
    rw [moved, hstart]
    exact ⟨[], .start caches trivial⟩
  | @robot models hand log s m neighbours params c inv _ hm hrun ih =>
    obtain ⟨log', ih⟩ := ih
    have hrun' : (RobotChecker.make m neighbours params).run (s.moved g).inventory = (.ok c, inv.moved g) := by
      have h := RobotChecker.parallel_make (g := g) m neighbours params s.inventory
      rwa [hrun] at h
    exact ⟨log', History.robot (s := s.moved g) ih hm hrun'⟩
  | @refused models hand log s m neighbours params e inv _ _ hm hrun ih =>
    obtain ⟨log', ih⟩ := ih
    have hrun' : (RobotChecker.make m neighbours params).run (s.moved g).inventory = (.error e, inv.moved g) := by
      have h := RobotChecker.parallel_make (g := g) m neighbours params s.inventory
      rwa [hrun] at h
    exact ⟨log', History.refused (s := s.moved g) ih trivial hm hrun'⟩
  | @world models hand log s params _ _ ih =>
    obtain ⟨log', ih⟩ := ih
    exact ⟨log', History.world (s := s.moved g) params ih trivial⟩
  | @step models hand log s a _ ha ih =>
    obtain ⟨log', ih⟩ := ih
    have hchecked : (a.moved g).Checked := by
      cases a with
      | add i name shape pose => exact (PoseSource.checked_moved_iff hg pose).mpr ha
      | attach | detach | detachAll | remove | clear | release => exact trivial
    have hhand : (a.moved g).byHand = a.byHand := by cases a <;> rfl
    rw [← step_moved, ← hhand]
    exact ⟨_, .step (a.moved g) ih hchecked⟩
  | @others models hand log s caches _ _ ih =>
    obtain ⟨log', ih⟩ := ih
    exact ⟨log', History.others (s := s.moved g) caches ih trivial⟩

end Checkers

end Clearance
