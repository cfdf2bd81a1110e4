import Clearance.Proofs.Collision.CheckerRuns

/-!
# What operations on checkers do

The runs of the operations on links, robots and worlds, each in terms of the one operation that can
fail in it after something was changed: building a body. Releasing bodies and reporting events never
fail.

* `Inventory.proceed`: a run that goes on without a step that can fail.
* `LinkGeometry.run_make`, `LinkGeometry.run_attach`, `LinkGeometry.run_detach`,
  `LinkGeometry.run_detachAll`: links.
* `RobotChecker.run_make`, `RobotChecker.run_attach`, `RobotChecker.run_detach`,
  `RobotChecker.run_detachAll_link`, `RobotChecker.run_detachAll_all`: robots.
* `WorldChecker.run_add_eq`, `WorldChecker.run_remove`, `WorldChecker.run_clear`: worlds.
-/

namespace Clearance

variable {α : Type}

/-! ## Runs -/

namespace Inventory

/-- The inventory with one more event. -/
def noting (inv : Inventory α) (e : Event α) : Inventory α := { inv with events := inv.events.push e }

/-- What comes of a run that goes on, if it did not fail, without a step that can fail. -/
def proceed {β γ : Type} (r : Except (Error α) β × Inventory α) (result : β → γ)
    (next : β → Inventory α → Inventory α) : Except (Error α) γ × Inventory α :=
  match r with
  | (.ok b, inv) => (.ok (result b), next b inv)
  | (.error e, inv) => (.error e, inv)

/-- Going on fails if there was a failure already. -/
theorem proceed_eq_error {β γ : Type} {r : Except (Error α) β × Inventory α} {result : β → γ}
    {next : β → Inventory α → Inventory α} {e : Error α} {inv : Inventory α} :
    proceed r result next = (.error e, inv) ↔ r = (.error e, inv) := by
  obtain ⟨outcome, inv'⟩ := r
  cases outcome with
  | ok b => exact ⟨nofun, nofun⟩
  | error e' =>
    constructor <;> intro h <;> cases h <;> rfl

theorem proceed_eq_ok {β γ : Type} {r : Except (Error α) β × Inventory α} {result : β → γ}
    {next : β → Inventory α → Inventory α} {c : γ} {inv : Inventory α} :
    proceed r result next = (.ok c, inv) ↔
      ∃ b inv', r = (.ok b, inv') ∧ result b = c ∧ next b inv' = inv := by
  obtain ⟨outcome, inv'⟩ := r
  cases outcome with
  | ok b =>
    constructor
    · intro h
      cases h
      exact ⟨b, inv', rfl, rfl, rfl⟩
    · rintro ⟨b', inv'', hr, rfl, rfl⟩
      cases hr
      rfl
  | error e =>
    constructor
    · nofun
    · rintro ⟨_, _, ⟨⟩, -⟩

/-- A computation that ends in steps that cannot fail. -/
theorem run_bind_eq_proceed {β γ : Type} {x : InventoryM α β} {f : β → InventoryM α γ}
    {result : β → γ} {next : β → Inventory α → Inventory α} {inv : Inventory α}
    (hf : ∀ b inv', (f b).run inv' = (.ok (result b), next b inv')) :
    (x >>= f).run inv = proceed (x.run inv) result next := by
  rw [run_bind]
  obtain ⟨outcome, inv'⟩ := x.run inv
  cases outcome with
  | ok b => exact hf b inv'
  | error e => rfl

variable [Scalar α]

/-- Bodies are released one after the other. -/
theorem run_forM_release (ids : List Nat) (inv : Inventory α) :
    (ids.forM release).run inv = (.ok (), ids.foldl releaseBody inv) := by
  induction ids generalizing inv with
  | nil => rfl
  | cons id rest ih =>
    show (release id >>= fun _ => rest.forM release).run inv = _
    rw [run_bind, run_release]
    exact ih _

end Inventory

open Inventory (proceed run_bind run_liftM run_bind_eq_proceed)

variable [Scalar α]

/-! ## Links -/

namespace LinkGeometry

/-- The body that the shapes of a link ask for. -/
def ownSource (link : String) (shapes : List (ShapeSource α))
    (poses : Option (List (PoseSource α))) : BodySource α := ⟨link, .ok .link, shapes, poses⟩

/-- A link without shapes has no body. -/
theorem run_make (link : String) (shapes : List (ShapeSource α))
    (poses : Option (List (PoseSource α))) (params : BodyParams α) (inv : Inventory α) :
    (make link shapes poses params).run inv =
      if shapes.isEmpty then (.ok ⟨link, none, Table.empty, params⟩, inv)
      else proceed ((Inventory.build (ownSource link shapes poses) params).run inv)
        (fun id => ⟨link, some id, Table.empty, params⟩) fun _ inv' => inv' := by
  unfold make
  split
  · rfl
  · exact run_bind_eq_proceed fun _ _ => rfl

/-- The inventory in which the body that an attachment replaces is released, if there is one. -/
def replacing (g : LinkGeometry α) (a : Attachment α) (inv : Inventory α) : Inventory α :=
  match g.attached.find? a.name with
  | some previous => (inv.releaseBody previous).noting (.bodyReplaced a.name g.link)
  | none => inv

/-- An attachment fails where its body cannot be built, and only there. -/
theorem run_attach (g : LinkGeometry α) (a : Attachment α) (inv : Inventory α) :
    (g.attach a).run inv = proceed ((Inventory.build (g.source a) g.params).run inv)
      (fun id => ({ g with attached := g.attached.push a.name id }, id))
      fun _ inv' => (g.replacing a inv').noting (.bodyAttached a.name a.shapes.length g.link) := by
  refine run_bind_eq_proceed fun id inv' => ?_
  dsimp only [replacing]
  cases g.attached.find? a.name <;> rfl

theorem run_detach (g : LinkGeometry α) (name : String) (inv : Inventory α) :
    (g.detach name).run inv = match g.attachedBody name with
      | .ok id => (.ok { g with attached := g.attached.erase name },
          (inv.releaseBody id).noting (.bodyDetached name g.link))
      | .error e => (.error e, inv) := by
  unfold detach
  rw [run_bind, run_liftM]
  cases g.attachedBody name <;> rfl

theorem run_detachAll (g : LinkGeometry α) (inv : Inventory α) :
    g.detachAll.run inv =
      (.ok { g with attached := Table.empty }, g.attached.values.foldl Inventory.releaseBody inv) := by
  unfold detachAll
  rw [run_bind, Inventory.run_forM_release]
  rfl

end LinkGeometry

/-! ## Robots -/

namespace RobotChecker

/-- The bodies of a link that is a model's. -/
def makeGeometry (params : BodyParams α) (l : Link α) : InventoryM α (LinkGeometry α) :=
  LinkGeometry.make l.name (Inventory.sources l.shapes) (Inventory.poseSources l.shapes) params

/-- The bodies of links, in the order of the links. -/
def makeGeometries (params : BodyParams α) (ls : List (Link α)) :
    InventoryM α (List (LinkGeometry α)) :=
  ls.mapM (makeGeometry params)

theorem run_makeGeometries_cons (params : BodyParams α) (l : Link α) (rest : List (Link α))
    (inv : Inventory α) :
    (makeGeometries params (l :: rest)).run inv = match (makeGeometry params l).run inv with
      | (.ok g, inv₁) =>
        proceed ((makeGeometries params rest).run inv₁) (g :: ·) fun _ inv' => inv'
      | (.error e, inv₁) => (.error e, inv₁) := by
  unfold makeGeometries
  rw [List.mapM_cons, run_bind]
  obtain ⟨outcome, inv₁⟩ := (makeGeometry params l).run inv
  cases outcome with
  | error e => rfl
  | ok g => exact run_bind_eq_proceed fun _ _ => rfl

/-- A checker cannot be made where its neighbours cannot be told or the bodies of the links cannot
    be built, and only there. -/
theorem run_make (m : RobotModel α) (neighbours : Option (List (String × String)))
    (params : BodyParams α) (inv : Inventory α) :
    (make m neighbours params).run inv = match neighbourPairs m neighbours with
      | .ok pairs => proceed ((makeGeometries params m.links.values).run inv)
          (fun gs => ⟨m.name, pairs, Table.ofList (gs.map fun g => (g.link, g))⟩)
          fun gs inv' => inv'.noting (.robotCreated gs.length m.name)
      | .error e => (.error e, inv) := by
  unfold make
  rw [run_bind, run_liftM]
  cases neighbourPairs m neighbours with
  | error e => rfl
  | ok pairs => exact run_bind_eq_proceed fun _ _ => rfl

theorem run_attach (c : RobotChecker α) (link : String) (a : Attachment α) (inv : Inventory α) :
    (c.attach link a).run inv = match c.geometry link with
      | .ok g => proceed ((g.attach a).run inv) (fun r => (c.setGeometry r.1, r.2))
          fun _ inv' => inv'
      | .error e => (.error e, inv) := by
  unfold attach
  rw [run_bind, run_liftM]
  cases c.geometry link with
  | error e => rfl
  | ok g => exact run_bind_eq_proceed fun _ _ => rfl

theorem run_detach (c : RobotChecker α) (link name : String) (inv : Inventory α) :
    (c.detach link name).run inv = match c.geometry link with
      | .ok g => proceed ((g.detach name).run inv) c.setGeometry fun _ inv' => inv'
      | .error e => (.error e, inv) := by
  unfold detach
  rw [run_bind, run_liftM]
  cases c.geometry link with
  | error e => rfl
  | ok g => exact run_bind_eq_proceed fun _ _ => rfl

theorem run_detachAll_link (c : RobotChecker α) (link : String) (inv : Inventory α) :
    (c.detachAll (some link)).run inv = match c.geometry link with
      | .ok g => (.ok (c.setGeometry { g with attached := Table.empty }),
          g.attached.values.foldl Inventory.releaseBody inv)
      | .error e => (.error e, inv) := by
  unfold detachAll
  rw [run_bind, run_liftM]
  cases c.geometry link with
  | error e => rfl
  | ok g =>
    dsimp only
    rw [run_bind, LinkGeometry.run_detachAll]
    rfl

/-- The checker with no bodies attached to some of its links, and the inventory in which these are
    released. -/
def detached (r : RobotChecker α × Inventory α) (g : LinkGeometry α) :
    RobotChecker α × Inventory α :=
  (r.1.setGeometry { g with attached := Table.empty },
    g.attached.values.foldl Inventory.releaseBody r.2)

/-- The bodies of all links are taken off link by link, which never fails. -/
theorem run_detachAll_all (c : RobotChecker α) (inv : Inventory α) :
    (c.detachAll none).run inv =
      let r := c.geometries.values.foldl detached (c, inv)
      (.ok r.1, r.2) := by
  have fold : ∀ (gs : List (LinkGeometry α)) (r : RobotChecker α × Inventory α),
      (gs.foldlM (fun c g => do return c.setGeometry (← g.detachAll)) r.1 : InventoryM α _).run r.2 =
        (.ok (gs.foldl detached r).1, (gs.foldl detached r).2) := by
    intro gs
    induction gs with
    | nil => exact fun _ => rfl
    | cons g rest ih =>
      intro r
      rw [List.foldlM_cons, run_bind, run_bind, LinkGeometry.run_detachAll]
      exact ih (detached r g)
  exact fold _ (c, inv)

end RobotChecker

/-! ## Worlds -/

namespace WorldChecker

/-- The inventory in which the obstacle that another replaces is released, if there is one. -/
def replacing (w : WorldChecker α) (name : String) (inv : Inventory α) : Inventory α :=
  match w.objects.find? name with
  | some previous => (inv.releaseBody previous).noting (.objectReplaced name)
  | none => inv.noting (.objectAdded name)

/-- An obstacle cannot be added where its pose is not one or its body cannot be built, and only
    there. -/
theorem run_add_eq (w : WorldChecker α) (name : String) (shape : ShapeSource α)
    (pose : PoseSource α) (inv : Inventory α) :
    (w.add name shape pose).run inv = match pose.toPose with
      | .ok p => proceed ((Inventory.build (source name shape p) w.params).run inv)
          (fun id => ({ w with objects := w.objects.set name id }, id))
          fun _ inv' => w.replacing name inv'
      | .error e => (.error e, inv) := by
  unfold add
  rw [run_bind, run_liftM]
  cases pose.toPose with
  | error e => rfl
  | ok p =>
    refine run_bind_eq_proceed fun id inv' => ?_
    dsimp only [replacing]
    cases w.objects.find? name <;> rfl

theorem run_remove (w : WorldChecker α) (name : String) (inv : Inventory α) :
    (w.remove name).run inv = match w.object name with
      | .ok id => (.ok { w with objects := w.objects.erase name },
          (inv.releaseBody id).noting (.objectRemoved name))
      | .error e => (.error e, inv) := by
  unfold remove
  rw [run_bind, run_liftM]
  cases w.object name <;> rfl

theorem run_clear (w : WorldChecker α) (inv : Inventory α) :
    w.clear.run inv =
      (.ok { w with objects := Table.empty }, w.objects.values.foldl Inventory.releaseBody inv) := by
  unfold clear
  rw [run_bind, Inventory.run_forM_release]
  rfl

end WorldChecker

end Clearance
