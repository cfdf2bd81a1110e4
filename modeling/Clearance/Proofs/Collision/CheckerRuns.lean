import Clearance.Proofs.Collision.Enclosing
import Clearance.Proofs.Field.Shapes
import Clearance.Proofs.Collision.Checkers

/-!
# Runs of checkers that share a cache

Whatever is done with robot checkers and worlds, in whichever order and also again, the shared cache
counts for each key the bodies that own the field under it, as long as nothing fails after a field was
obtained for it.

* `Inventory.Keeps`: computations that keep the accounts.
* `Checkers.Sound`: the invariant, with its step `Checkers.Sound.step` and its run
  `Checkers.sound_of_reachable`.
* `Checkers.owners_of_reachable`: the accounts of the shared cache.
-/

namespace Clearance

/-! ## Composing computations -/

namespace Inventory

variable {α : Type} [Scalar α]

/-- A computation keeps the accounts from an inventory on, and what it gives satisfies `post`. Where
    it fails it has to keep them only if `strict` holds. -/
structure Keeps {β : Type} (n : Nat) (strict : Prop) (x : InventoryM α β) (inv : Inventory α)
    (post : β → Prop) :
    Prop where
  ok : ∀ b inv', x.run inv = (.ok b, inv') → Accounted n inv' ∧ post b
  error : strict → ∀ e inv', x.run inv = (.error e, inv') → Accounted n inv'

namespace Keeps

variable {β γ : Type} {n : Nat} {strict : Prop} {inv : Inventory α} {post : β → Prop}
    {post' : γ → Prop}

theorem pure (h : Accounted n inv) {b : β} (hb : post b) :
    Keeps n strict (pure b : InventoryM α β) inv post where
  ok b' inv' hrun := by
    rw [run_pure] at hrun
    cases hrun
    exact ⟨h, hb⟩
  error _ e inv' hrun := by
    rw [run_pure] at hrun
    cases hrun

theorem bind {x : InventoryM α β} {f : β → InventoryM α γ} (hx : Keeps n strict x inv post)
    (hf : ∀ b inv', post b → Accounted n inv' → Keeps n strict (f b) inv' post') :
    Keeps n strict (x >>= f) inv post' where
  ok c inv' hrun := by
    rw [run_bind] at hrun
    cases hr : x.run inv with
    | mk outcome inv₁ =>
      rw [hr] at hrun
      cases outcome with
      | error e => cases hrun
      | ok b =>
        obtain ⟨h, hb⟩ := hx.ok b inv₁ hr
        exact (hf b inv₁ hb h).ok c inv' hrun
  error hs e inv' hrun := by
    rw [run_bind] at hrun
    cases hr : x.run inv with
    | mk outcome inv₁ =>
      rw [hr] at hrun
      cases outcome with
      | error e' =>
        cases hrun
        exact hx.error hs e inv' hr
      | ok b =>
        obtain ⟨h, hb⟩ := hx.ok b inv₁ hr
        exact (hf b inv₁ hb h).error hs e inv' hrun

/-- A lookup or a check leaves the inventory alone. -/
theorem lift_bind (h : Accounted n inv) {x : Except (Error α) β} {f : β → InventoryM α γ}
    (hf : ∀ b, x = .ok b → Keeps n strict (f b) inv post') :
    Keeps n strict ((liftM x : InventoryM α β) >>= f) inv post' := by
  cases x with
  | ok b => exact hf b rfl
  | error e =>
    constructor
    · intro c inv' hrun
      cases hrun
    · intro _ e' inv' hrun
      cases hrun
      exact h

theorem report (h : Accounted n inv) (e : Event α) :
    Keeps n strict (Inventory.report e) inv fun _ => True where
  ok b inv' hrun := by
    rw [run_report] at hrun
    cases hrun
    exact ⟨h.of_same (sameAccounts_events inv _), trivial⟩
  error _ e inv' hrun := by
    rw [run_report] at hrun
    cases hrun

/-- A loop keeps what each of its rounds keeps. -/
theorem foldlM {f : γ → β → InventoryM α γ} {bs : List β}
    (hf : ∀ b ∈ bs, ∀ c inv', post' c → Accounted n inv' → Keeps n strict (f c b) inv' post')
    {c : γ} (hc : post' c) (h : Accounted n inv) : Keeps n strict (bs.foldlM f c) inv post' := by
  induction bs generalizing c inv with
  | nil => exact .pure h hc
  | cons b rest ih =>
    refine .bind (hf b List.mem_cons_self c inv hc h) fun c' inv' hc' h' => ?_
    exact ih (fun b hb => hf b (List.mem_cons_of_mem _ hb)) hc' h'

theorem mapM {f : β → InventoryM α γ} {bs : List β}
    (hf : ∀ b inv', Accounted n inv' → Keeps n strict (f b) inv' post') (h : Accounted n inv) :
    Keeps n strict (bs.mapM f) inv fun cs => ∀ c ∈ cs, post' c := by
  induction bs generalizing inv with
  | nil => exact .pure h fun c hc => by cases hc
  | cons b rest ih =>
    rw [List.mapM_cons]
    refine .bind (hf b inv h) fun c inv' hc h' => .bind (ih h') fun cs inv'' hcs h'' => .pure h'' ?_
    intro c' hc'
    rcases List.mem_cons.mp hc' with rfl | hc'
    · exact hc
    · exact hcs c' hc'

variable [LawfulScalar α]

theorem release (h : Accounted n inv) (id : Nat) :
    Keeps n strict (Inventory.release id) inv fun _ => True where
  ok b inv' hrun := by
    rw [run_release] at hrun
    cases hrun
    exact ⟨accounted_releaseBody h id, trivial⟩
  error _ e inv' hrun := by
    rw [run_release] at hrun
    cases hrun

theorem build (h : Accounted n inv) (source : BodySource α) {params : BodyParams α}
    (hp : InRange params n) (hlate : strict → ¬FailsLate source params inv) :
    Keeps n strict (Inventory.build source params) inv fun _ => True where
  ok _ _ hrun := ⟨accounted_build_ok h hp hrun, trivial⟩
  error hs _ _ hrun := accounted_build_error h (hlate hs) hrun

/-- Bodies released one after the other. -/
theorem forM_release (h : Accounted n inv) (ids : List Nat) :
    Keeps n strict (ids.forM Inventory.release) inv fun _ => True := by
  induction ids generalizing inv with
  | nil => exact .pure h trivial
  | cons id rest ih => exact .bind (.release h id) fun _ inv' _ h' => ih h'

end Keeps

end Inventory

/-! ## Links -/

section Operations

variable {α : Type} [Scalar α] [LawfulScalar α] {n : Nat} {strict : Prop} {inv : Inventory α}

open Inventory (Accounted Keeps InRange FailsLate)

namespace LinkGeometry

theorem keeps_make (h : Accounted n inv) (link : String) (shapes : List (ShapeSource α))
    (poses : Option (List (PoseSource α))) {params : BodyParams α} (hp : InRange params n) :
    Keeps n False (make link shapes poses params) inv fun g => InRange g.params n := by
  unfold make
  split
  · exact .pure h hp
  · exact .bind (.build h _ hp False.elim) fun id inv' _ h' => .pure h' hp

theorem keeps_attach (h : Accounted n inv) {g : LinkGeometry α} (hp : InRange g.params n)
    (a : Attachment α) (hlate : strict → ¬FailsLate (g.source a) g.params inv) :
    Keeps n strict (g.attach a) inv fun r => InRange r.1.params n := by
  unfold attach
  refine .bind (.build h _ hp hlate) fun id inv' _ h' => ?_
  dsimp only
  cases g.attached.find? a.name with
  | none => exact .bind (.report h' _) fun _ inv'' _ h'' => .pure h'' hp
  | some previous =>
    refine .bind (.release h' previous) fun _ inv₁ _ h₁ =>
      .bind (.report h₁ _) fun _ inv₂ _ h₂ => ?_
    exact .bind (.report h₂ _) fun _ inv₃ _ h₃ => .pure h₃ hp

theorem keeps_detach (h : Accounted n inv) {g : LinkGeometry α} (hp : InRange g.params n)
    (name : String) :
    Keeps n strict (g.detach name) inv fun g' => InRange g'.params n := by
  unfold detach
  refine .lift_bind h fun id _ => .bind (.release h id) fun _ inv₁ _ h₁ => ?_
  exact .bind (.report h₁ _) fun _ inv₂ _ h₂ => .pure h₂ hp

theorem keeps_detachAll (h : Accounted n inv) {g : LinkGeometry α} (hp : InRange g.params n) :
    Keeps n strict g.detachAll inv fun g' => InRange g'.params n := by
  unfold detachAll
  exact .bind (.forM_release h _) fun _ inv' _ h' => .pure h' hp

end LinkGeometry

/-! ## Robots -/

namespace RobotChecker

omit [Scalar α] [LawfulScalar α] in
theorem mem_of_geometry {c : RobotChecker α} {link : String} {g : LinkGeometry α}
    (h : c.geometry link = .ok g) : g ∈ c.geometries.values := by
  unfold geometry at h
  split at h
  · cases h
    exact Table.mem_values_of_find? ‹_›
  · cases h

omit [Scalar α] [LawfulScalar α] in
/-- A table of links holds nothing but these. -/
theorem mem_of_mem_ofList {gs : List (LinkGeometry α)} {g : LinkGeometry α}
    (h : g ∈ (Table.ofList (gs.map fun g => (g.link, g))).values) : g ∈ gs := by
  have hg := Table.mem_values_ofList h
  rw [List.map_map, List.mem_map] at hg
  obtain ⟨_, hmem, rfl⟩ := hg
  exact hmem

/-- The bodies of all links are kept in caches that exist. -/
def InRange (c : RobotChecker α) (n : Nat) : Prop :=
  ∀ g ∈ c.geometries.values, Inventory.InRange g.params n

omit [Scalar α] [LawfulScalar α] in
theorem inRange_setGeometry {c : RobotChecker α} (hc : c.InRange n) {g : LinkGeometry α}
    (hg : Inventory.InRange g.params n) : (c.setGeometry g).InRange n := by
  intro g' hg'
  rcases Table.mem_values_set hg' with rfl | hg'
  · exact hg
  · exact hc g' hg'

theorem keeps_make (h : Accounted n inv) (m : RobotModel α)
    (neighbours : Option (List (String × String))) {params : BodyParams α}
    (hp : Inventory.InRange params n) :
    Keeps n False (make m neighbours params) inv fun c => c.InRange n := by
  unfold make
  refine .lift_bind h fun pairs _ => ?_
  refine .bind (.mapM (fun l inv' h' => LinkGeometry.keeps_make h' _ _ _ hp) h)
    fun gs inv₁ hgs h₁ => ?_
  refine .bind (.report h₁ _) fun _ inv₂ _ h₂ => .pure h₂ ?_
  exact fun g hg => hgs g (mem_of_mem_ofList hg)

theorem keeps_attach (h : Accounted n inv) {c : RobotChecker α} (hc : c.InRange n) (link : String)
    (a : Attachment α)
    (hlate : strict → ∀ g, c.geometry link = .ok g → ¬FailsLate (g.source a) g.params inv) :
    Keeps n strict (c.attach link a) inv fun r => r.1.InRange n := by
  unfold attach
  refine .lift_bind h fun g hg => ?_
  refine .bind (LinkGeometry.keeps_attach h (hc g (mem_of_geometry hg)) a fun hs =>
    hlate hs g hg) ?_
  exact fun r inv' hr h' => .pure h' (inRange_setGeometry hc hr)

theorem keeps_detach (h : Accounted n inv) {c : RobotChecker α} (hc : c.InRange n)
    (link name : String) :
    Keeps n strict (c.detach link name) inv fun c' => c'.InRange n := by
  unfold detach
  refine .lift_bind h fun g hg => ?_
  refine .bind (LinkGeometry.keeps_detach h (hc g (mem_of_geometry hg)) name)
    fun g' inv' hg' h' => ?_
  exact .pure h' (inRange_setGeometry hc hg')

theorem keeps_detachAll (h : Accounted n inv) {c : RobotChecker α} (hc : c.InRange n)
    (link : Option String) :
    Keeps n strict (c.detachAll link) inv fun c' => c'.InRange n := by
  cases link with
  | some link =>
    refine .lift_bind h fun g hg => ?_
    refine .bind (LinkGeometry.keeps_detachAll h (hc g (mem_of_geometry hg)))
      fun g' inv' hg' h' => ?_
    exact .pure h' (inRange_setGeometry hc hg')
  | none =>
    refine .foldlM (fun g hg c' inv' hc' h' => ?_) hc h
    refine .bind (LinkGeometry.keeps_detachAll h' (hc g hg)) fun g' inv₂ hg' h₂ => ?_
    exact .pure h₂ (inRange_setGeometry hc' hg')

end RobotChecker

/-! ## Worlds -/

namespace WorldChecker

theorem keeps_add (h : Accounted n inv) {w : WorldChecker α} (hp : Inventory.InRange w.params n)
    (name : String) (shape : ShapeSource α) (pose : PoseSource α)
    (hlate : strict → ∀ p, pose.toPose = .ok p → ¬FailsLate (source name shape p) w.params inv) :
    Keeps n strict (w.add name shape pose) inv fun r => Inventory.InRange r.1.params n := by
  unfold add
  refine .lift_bind h fun p hpose => .bind (.build h _ hp fun hs => hlate hs p hpose)
    fun id inv' _ h' => ?_
  cases w.objects.find? name with
  | none => exact .bind (.report h' _) fun _ inv'' _ h'' => .pure h'' hp
  | some previous =>
    refine .bind (.release h' previous) fun _ inv₁ _ h₁ =>
      .bind (.report h₁ _) fun _ inv₂ _ h₂ => ?_
    exact .pure h₂ hp

omit [LawfulScalar α] in
/-- An obstacle under a new name, once it is built. -/
theorem run_add {w : WorldChecker α} {name : String} {shape : ShapeSource α} {pose : PoseSource α}
    {p : Pose α} {inv inv' : Inventory α} {id : Nat} (hp : pose.toPose = .ok p)
    (hb : (Inventory.build (source name shape p) w.params).run inv = (.ok id, inv'))
    (hnew : w.objects.find? name = none) :
    (w.add name shape pose).run inv =
      (.ok ({ w with objects := w.objects.set name id }, id),
        { inv' with events := inv'.events.push (.objectAdded name) }) := by
  unfold add
  rw [Inventory.run_bind, Inventory.run_liftM, hp]
  dsimp only
  rw [Inventory.run_bind,
    show (Inventory.build ⟨name, .ok (.obstacle p), [shape], none⟩ w.params).run inv = _ from hb]
  dsimp only
  rw [hnew]
  rfl

theorem keeps_remove (h : Accounted n inv) {w : WorldChecker α} (hp : Inventory.InRange w.params n)
    (name : String) :
    Keeps n strict (w.remove name) inv fun w' => Inventory.InRange w'.params n := by
  unfold remove
  refine .lift_bind h fun id _ => .bind (.release h id) fun _ inv₁ _ h₁ => ?_
  exact .bind (.report h₁ _) fun _ inv₂ _ h₂ => .pure h₂ hp

theorem keeps_clear (h : Accounted n inv) {w : WorldChecker α} (hp : Inventory.InRange w.params n) :
    Keeps n strict w.clear inv fun w' => Inventory.InRange w'.params n := by
  unfold clear
  exact .bind (.forM_release h _) fun _ inv' _ h' => .pure h' hp

end WorldChecker

end Operations

/-! ## Checkers -/

namespace Checkers

variable {α : Type} [Scalar α]

theorem leaves_of_keeps {β : Type} {x : InventoryM α β} {inv : Inventory α} {post : β → Prop}
    (h : Inventory.Keeps 1 True x inv post) : Leaves (Inventory.Accounted 1) post (x.run inv) := by
  cases hr : x.run inv with
  | mk outcome inv' =>
    cases outcome with
    | ok b =>
      obtain ⟨haccounted, hb⟩ := h.ok b inv' hr
      exact ⟨haccounted, fun b' hb' => Except.ok.inj hb' ▸ hb⟩
    | error e => exact ⟨h.error trivial e inv' hr, nofun⟩

/-- The accounts of the one cache are right, and no checker uses another. -/
abbrev Sound (s : Checkers α) : Prop :=
  s.Every (Inventory.Accounted 1) (fun c => c.InRange 1) fun w => Inventory.InRange w.params 1

variable [LawfulScalar α]

/-- Every action that does not fail late keeps the invariant. -/
theorem Sound.step {s : Checkers α} (hs : s.Sound) (a : Action α) (ha : ¬s.FailsLate a) :
    (s.step a).Sound := by
  have h := hs.inventory
  cases a with
  | attach i link a =>
    refine hs.onRobot fun c hi hc => leaves_of_keeps (RobotChecker.keeps_attach h hc link a ?_)
    exact fun _ g hg hlate => ha ⟨c, g, hi, hg, hlate⟩
  | detach i link name =>
    exact hs.onRobot fun c _ hc => leaves_of_keeps (RobotChecker.keeps_detach h hc link name)
  | detachAll i link =>
    exact hs.onRobot fun c _ hc => leaves_of_keeps (RobotChecker.keeps_detachAll h hc link)
  | add i name shape pose =>
    refine hs.onWorld fun w hi hw => leaves_of_keeps (WorldChecker.keeps_add h hw name shape pose ?_)
    exact fun _ p hp hlate => ha ⟨w, p, hi, hp, hlate⟩
  | remove i name => exact hs.onWorld fun w _ hw => leaves_of_keeps (WorldChecker.keeps_remove h hw name)
  | clear i => exact hs.onWorld fun w _ hw => leaves_of_keeps (WorldChecker.keeps_clear h hw)
  | release body => exact hs.after (leaves_of_keeps (.release h body)) fun _ s' _ hs' => hs'

omit [Scalar α] [LawfulScalar α] in
theorem inRange_of_shared {params : BodyParams α} (h : params.cache = some 0) :
    Inventory.InRange params 1 := by
  intro id hid
  rw [h] at hid
  cases hid
  exact Nat.one_pos

/-- The invariant holds of all checkers that can come about. -/
theorem sound_of_reachable {settings : Settings α} {s : Checkers α} (h : Reachable settings s) :
    s.Sound := by
  obtain ⟨models, hand, log, h⟩ := h
  refine every_of_history ?_ ?_ ?_ (fun _ hp => inRange_of_shared hp) (fun _ a hs ha => Sound.step hs a ha) ?_ h
  · rintro _ rfl
    exact Inventory.accounted_start settings 1
  · intro m neighbours params inv c inv' hp hinv hrun
    exact (RobotChecker.keeps_make hinv m neighbours (inRange_of_shared hp)).ok c inv' hrun
  · exact fun _ _ _ _ _ _ hrefusals => False.elim hrefusals
  · exact fun _ _ hothers => False.elim hothers

/-! ## A cube -/

section Cube

open DistanceField (cube cubeGrid)

/-- The parameters of the cube in a world on the shared cache. -/
noncomputable def cubeParams : BodyParams ℝ := ⟨cubeGrid, none, some 0⟩

/-- The key of the field of the cube. -/
noncomputable def cubeKey : FieldKey ℝ :=
  ⟨[cube.digest], [FieldKey.roundedPose .origin], .real 1, some (.real 0), none⟩

theorem make_cubeKey (settings : Settings ℝ) :
    FieldKey.make settings [.shape cube] (some [.pose .origin]) cubeGrid = .ok cubeKey := by
  refine bind_eq_ok.mpr ⟨.real 1, rfl, bind_eq_ok.mpr ⟨[.origin], ?_, rfl⟩⟩
  exact mapM_eq_ok.mpr (.cons Pose.toPose_origin .nil)

theorem same_cubeKey : cubeKey.same cubeKey = true := by
  simp [cubeKey, FieldKey.same, FieldKey.sameAll, FieldKey.sameOption, FieldKey.samePose,
    FieldKey.sameVec, cube, Shape.digest, Digest.same, Given.same, Exact.eq_iff]

/-- A cube at the origin cannot fail late. -/
theorem not_failsLate_cube {name : String} {inv : Inventory ℝ} :
    ¬ Inventory.FailsLate (WorldChecker.source name (.shape cube) .origin) cubeParams inv := by
  rintro ⟨shapes, field, hold, inv', f, hs, hspacing, -, hf⟩
  obtain rfl : [⟨cube, .origin⟩] = shapes := Except.ok.inj hs
  have hrole : (WorldChecker.source name (.shape cube) .origin).role = .ok (.obstacle .origin) :=
    rfl
  obtain ⟨b, hb⟩ :=
    Inventory.exists_finish hrole (List.cons_ne_nil _ _) DistanceField.isBox_cube
    hspacing field hold
  rw [hf] at hb
  cases hb

/-- The field of the cube can be obtained from the shared cache where it is not kept yet. -/
theorem exists_obtainField_cube (inv : Inventory ℝ) (hsettings : inv.settings = .standard)
    (hmissing : (inv.cache 0).find? cubeKey = none) :
    ∃ (f : DistanceField ℝ) (inv' : Inventory ℝ),
      (Inventory.obtainField [⟨cube, .origin⟩] cubeParams).run inv =
        (.ok (f, some ⟨0, cubeKey⟩), inv') ∧ inv'.bodies = inv.bodies := by
  have hposes : FieldPlan.alignPoses 1 (some [.pose Pose.origin]) =
      (.ok [Pose.origin] : Except (Error ℝ) _) :=
    mapM_eq_ok.mpr (.cons Pose.toPose_origin .nil)
  obtain ⟨f, hf, -⟩ := DistanceField.exists_cube hposes
  have hacquired := FieldCache.acquire_missing (make_cubeKey .standard) hmissing hf
  rw [Inventory.obtainField_kept inv _ rfl, hsettings]
  exact ⟨f.copy, _, Prod.ext (congrArg (Except.map _) hacquired) rfl, rfl⟩

/-- The cube is the first body, and it owns its field in the shared cache. -/
theorem exists_run_add_cube : ∃ (b : Body ℝ) (w : WorldChecker ℝ) (inv : Inventory ℝ),
    ((WorldChecker.empty cubeParams).add "cube" (.shape cube) .absent).run
    (Inventory.start .standard 1) =
      (.ok (w, 0), inv) ∧ inv.bodies = #[b] ∧ b.hold? = some ⟨0, cubeKey⟩ := by
  let inv : Inventory ℝ := Inventory.start Settings.standard 1
  obtain ⟨f, inv', hobtain, hbodies⟩ := exists_obtainField_cube inv rfl rfl
  let source : BodySource ℝ := WorldChecker.source "cube" (.shape cube) .origin
  have hrole : source.role = .ok (.obstacle .origin) := rfl
  have hshapes : Inventory.placedShapes source = .ok [⟨cube, .origin⟩] := rfl
  have hspacing : Body.checkSpacing cubeParams.spacing = .ok ⟨⟩ := rfl
  obtain ⟨b, hb⟩ :=
    Inventory.exists_finish hrole (List.cons_ne_nil _ _) DistanceField.isBox_cube hspacing f
    (some ⟨0, cubeKey⟩)
  obtain ⟨_, _, _, -, -, -, -, hcontent⟩ := Inventory.finish_eq_ok hb
  have hrun := Inventory.run_build hshapes hspacing hobtain hb
  rw [hbodies] at hrun
  refine ⟨b, _, _, WorldChecker.run_add rfl hrun rfl, rfl, ?_⟩
  rw [Body.hold?, hcontent]
  rfl

end Cube

/-! ## The accounts of the shared cache -/

/-- Whatever was done, the shared cache counts under each key the bodies that own the field under
    it, of all bodies that were ever built, and it keeps a field exactly as long as some body owns
    it. -/
theorem owners_of_reachable (settings : Settings α) (s : Checkers α) (h : Reachable settings s)
    (key : FieldKey α) :
    (s.inventory.cache 0).owners key = s.inventory.ownersOf 0 key ∧
      ((s.inventory.cache 0).contains key = true ↔ 0 < s.inventory.ownersOf 0 key) := by
  have hs := (sound_of_reachable h).inventory
  rw [FieldCache.contains_iff_owners_pos (hs.wellKept 0), hs.owners 0 key]
  exact ⟨rfl, Iff.rfl⟩

open DistanceField (cube) in
/-- A world on the shared cache to which a cube was added, and then something that is no shape in
    vain: the field of the cube has one owner. -/
theorem owners_of_reachable_world :
    let made : Checkers ℝ :=
      ⟨Inventory.start Settings.standard 1, [], [WorldChecker.empty cubeParams]⟩
    let s := (made.step (.add 0 "cube" (.shape cube) .absent)).step
      (.add 0 "cube" .notAShape .absent)
    Reachable Settings.standard s ∧ (s.inventory.cache 0).owners cubeKey = 1 ∧
      (s.inventory.cache 0).contains cubeKey = true := by
  intro made s
  have h : Reachable Settings.standard s := by
    refine ⟨_, _, _, .step _ (.step _ (.world _ (.start 1 rfl) rfl) ?_) ?_⟩
    · rintro ⟨w, p, hw, hp, hlate⟩
      obtain rfl := Option.some.inj hw
      obtain rfl := Except.ok.inj hp
      exact not_failsLate_cube hlate
    · rintro ⟨w, p, -, -, shapes, field, hold, inv, f, hs, -⟩
      cases hs
  have hone : s.inventory.ownersOf 0 cubeKey = 1 := by
    obtain ⟨b, w, inv, hrun, hbodies, hhold⟩ := exists_run_add_cube
    have hadd : made.step (.add 0 "cube" (.shape cube) .absent) = ⟨inv, [], [w]⟩ := by
      rw [step, onWorld, show made.worlds[0]? = some (WorldChecker.empty cubeParams) from rfl,
        Option.elim_some, after,
        show made.inventory = Inventory.start Settings.standard 1 from rfl, hrun]
      rfl
    have hs : s.inventory.bodies = #[b] := by
      show ((made.step (.add 0 "cube" (.shape cube) .absent)).step _).inventory.bodies = _
      rw [hadd, ← hbodies]
      rfl
    rw [Inventory.ownersOf, hs]
    simp [Body.holds, hhold, same_cubeKey]
  obtain ⟨howners, hcontains⟩ := owners_of_reachable Settings.standard s h cubeKey
  rw [hone] at howners hcontains
  exact ⟨h, howners, hcontains.mpr Nat.one_pos⟩

end Checkers

end Clearance
