import Clearance.Proofs.Collision.Operations
import Clearance.Proofs.Collision.Taking
import Clearance.Proofs.Robot.Growth

/-!
# Robot checkers that cannot be made

The bodies of a robot checker are built link by link. If one of them cannot be built, there is no
checker, but the bodies that were built before it stay in the inventory, where nobody can release
them, and their fields keep them as owners.

* `RobotChecker.took_makeGeometries`: bodies that are built take their fields from the cache.
* `RobotChecker.exists_of_makeGeometries_error`: the link at which it fails.
* `RobotChecker.make_of_failure`: what is left.
-/

namespace Clearance.RobotChecker

variable {α : Type} [Scalar α]

/-- The links that have shapes, and therefore a body of their own. -/
def withShapes (ls : List (Link α)) : List (Link α) := ls.filter fun l => !l.shapes.isEmpty

/-- The body that a link asks for. -/
def ownSource (l : Link α) : BodySource α :=
  LinkGeometry.ownSource l.name (Inventory.sources l.shapes) (Inventory.poseSources l.shapes)

theorem run_makeGeometry (params : BodyParams α) (l : Link α) (inv : Inventory α) :
    (makeGeometry params l).run inv =
      if l.shapes.isEmpty then (.ok ⟨l.name, none, Table.empty, params⟩, inv)
      else Inventory.proceed ((Inventory.build (ownSource l) params).run inv)
        (fun id => ⟨l.name, some id, Table.empty, params⟩) fun _ inv' => inv' := by
  have hempty : (Inventory.sources l.shapes).isEmpty = l.shapes.isEmpty := List.isEmpty_map
  rw [makeGeometry, LinkGeometry.run_make, hempty]
  rfl

variable {params : BodyParams α} {id : Nat} {inv inv' : Inventory α}

/-- The link whose body is the first that cannot be built, after those of the links before it. -/
theorem exists_of_makeGeometries_error {ls : List (Link α)} {e : Error α}
    (h : (makeGeometries params ls).run inv = (.error e, inv')) :
    ∃ before l after gs inv₁, ls = before ++ l :: after ∧
      (makeGeometries params before).run inv = (.ok gs, inv₁) ∧
      (Inventory.build (ownSource l) params).run inv₁ = (.error e, inv') := by
  induction ls generalizing inv with
  | nil => cases h
  | cons l rest ih =>
    rw [run_makeGeometries_cons] at h
    cases hl : (makeGeometry params l).run inv with
    | mk outcome inv₁ =>
      rw [hl] at h
      cases outcome with
      | error e' =>
        cases h
        rw [run_makeGeometry] at hl
        split at hl
        · cases hl
        · rw [Inventory.proceed_eq_error] at hl
          exact ⟨[], l, rest, [], inv, rfl, rfl, hl⟩
      | ok g =>
        dsimp only at h
        rw [Inventory.proceed_eq_error] at h
        obtain ⟨before, l', after, gs, inv₂, rfl, hbefore, hbuild⟩ := ih h
        refine ⟨l :: before, l', after, g :: gs, inv₂, rfl, ?_, hbuild⟩
        rw [run_makeGeometries_cons, hl]
        dsimp only
        rw [hbefore]
        rfl

section

variable [LawfulScalar α]

/-- The body of a link takes its field from the cache, if the link has one. -/
theorem took_makeGeometry (hp : params.cache = some id) (hid : id < inv.caches.size) {l : Link α}
    {g : LinkGeometry α} (h : (makeGeometry params l).run inv = (.ok g, inv')) :
    ∃ built : List (Body α), built.map Body.name = (withShapes [l]).map Link.name ∧
      Inventory.Took id inv inv' built none := by
  rw [run_makeGeometry] at h
  split at h
  · rename_i hnone
    cases h
    refine ⟨[], ?_, Inventory.took_nothing rfl rfl rfl⟩
    simp [withShapes, hnone]
  · rename_i hsome
    obtain ⟨place, inv₁, hbuild, -, rfl⟩ := Inventory.proceed_eq_ok.mp h
    obtain ⟨b, hname, htook⟩ := Inventory.took_build hp hid hbuild
    refine ⟨[b], ?_, htook⟩
    simp [withShapes, hsome, hname, ownSource, LinkGeometry.ownSource]

/-- The bodies of links that have shapes are built one after the other, and each of them owns its
    field. -/
theorem took_makeGeometries (hp : params.cache = some id) (hid : id < inv.caches.size)
    {ls : List (Link α)} {gs : List (LinkGeometry α)}
    (h : (makeGeometries params ls).run inv = (.ok gs, inv')) :
    ∃ built : List (Body α), built.map Body.name = (withShapes ls).map Link.name ∧
      Inventory.Took id inv inv' built none := by
  induction ls generalizing inv gs with
  | nil =>
    cases h
    exact ⟨[], rfl, Inventory.took_nothing rfl rfl rfl⟩
  | cons l rest ih =>
    rw [run_makeGeometries_cons] at h
    cases hl : (makeGeometry params l).run inv with
    | mk outcome inv₁ =>
      rw [hl] at h
      cases outcome with
      | error e => cases h
      | ok g =>
        obtain ⟨gs', inv₂, hrest, -, rfl⟩ := Inventory.proceed_eq_ok.mp h
        obtain ⟨first, hfirst, htook⟩ := took_makeGeometry hp hid hl
        obtain ⟨others, hothers, htook'⟩ := ih (htook.size.symm ▸ hid) hrest
        refine ⟨first ++ others, ?_, htook.trans htook'⟩
        rw [List.map_append, hfirst, hothers, ← List.map_append]
        exact congrArg _ (List.filter_append [l] rest).symm

end

/-! ## A cube with a flange of no volume -/

section Flange

open DistanceField (cube)
open Checkers (cubeParams cubeKey same_cubeKey)

/-- A sphere that is a point. -/
noncomputable def point : Shape ℝ := .sphere 0

/-- A link that is a cube, and one on it that is a point. -/
noncomputable def flanged : RobotModel ℝ :=
  let base := (RobotModel.empty .plain (some "arm")).addLink
    ⟨"base", none, none, none, [.shape cube], none⟩
  (base.model.addLink ⟨"flange", some "base", none, none, [.shape point], none⟩).model

theorem grown_flanged : flanged.Grown := .addLink _ (.addLink _ (.empty _ _))

/-- The cube, as a link of the model. -/
noncomputable def baseLink : Link ℝ := ⟨"base", [⟨cube, .origin⟩], none, ["flange"], none⟩

/-- The point, as a link of the model. -/
noncomputable def flangeLink : Link ℝ :=
  ⟨"flange", [⟨point, .origin⟩], some "base", [], some "flange_joint"⟩

theorem links_flanged : flanged.links.values = [baseLink, flangeLink] := rfl

/-- A shape at the origin, as a link hands it on. -/
theorem placedShapes_origin (name : String) (role : Except Fault (BodyRole ℝ)) (s : Shape ℝ) :
    Inventory.placedShapes ⟨name, role, [.shape s], some [.pose .origin]⟩ =
      .ok [⟨s, .origin⟩] :=
  bind_eq_ok.mpr ⟨[s], rfl, bind_eq_ok.mpr
    ⟨[.origin], mapM_eq_ok.mpr (.cons Pose.toPose_origin .nil), rfl⟩⟩

/-- A point has no field. -/
theorem ofShapes_point (settings : Settings ℝ) (poses : Option (List (PoseSource ℝ)))
    (grid : GridParams ℝ) (f : DistanceField ℝ) :
    (DistanceField.ofShapes settings [.shape point] poses grid).1 ≠ .ok f := by
  intro h
  obtain ⟨plan, hplan, -⟩ := DistanceField.ofShapes_eq_ok.mp h
  have hmake : FieldPlan.make settings ([point].map .shape) poses grid = .ok plan := hplan
  obtain ⟨-, _, _, _, -, -, hvolume, -⟩ := FieldPlan.make_eq_ok.mp hmake
  obtain ⟨_, hpoint, -⟩ := bind_eq_ok.mp hvolume
  have hflat : Scalar.lt (0 : ℝ) 0 = false := by simp [← Bool.not_eq_true]
  have hdegenerate : point.isDegenerate = .ok true := by
    simp [point, Shape.isDegenerate, Shape.volume, Sphere.volume, Except.map, hflat]
  rw [FieldPlan.checkVolume, hdegenerate] at hpoint
  cases hpoint

/-- The field of a cube is not that of a point. -/
theorem not_same_point {settings : Settings ℝ} {key : FieldKey ℝ}
    {poses : Option (List (PoseSource ℝ))}
    (h : FieldKey.make settings [.shape point] poses cubeParams.grid = .ok key) :
    cubeKey.same key = false := by
  obtain ⟨_, -, h⟩ := bind_eq_ok.mp h
  obtain ⟨_, -, h⟩ := bind_eq_ok.mp h
  obtain ⟨_, hshapes, h⟩ := bind_eq_ok.mp h
  obtain ⟨_, -, h⟩ := bind_eq_ok.mp h
  cases hshapes
  cases h
  rfl

/-- Where only the field of the cube can be kept, a point cannot have one. -/
theorem obtainField_point {inv : Inventory ℝ} (hkept : (inv.cache 0).WellKept)
    (howners : ∀ k, cubeKey.same k = false → (inv.cache 0).owners k = 0)
    {field : DistanceField ℝ} {hold : Option (FieldHold ℝ)} {inv' : Inventory ℝ} :
    (Inventory.obtainField [⟨point, .origin⟩] cubeParams).run inv ≠ (.ok (field, hold), inv') := by
  intro h
  obtain ⟨key, hacquired, -⟩ := Inventory.obtainField_kept_ok rfl h
  have hway := FieldCache.acquiring (inv.cache 0) inv.settings
    (Inventory.sources [⟨point, .origin⟩]) (Inventory.poseSources [⟨point, .origin⟩])
    cubeParams.grid
  generalize (inv.cache 0).acquire inv.settings _ _ _ = acquired at hacquired hway
  cases hway with
  | refused => cases hacquired
  | @kept key' e _ _ hkey hfind =>
    have hcontains : (inv.cache 0).contains key' = true := by
      rw [FieldCache.contains, hfind, Option.isSome_some]
    have hpos := (FieldCache.contains_iff_owners_pos hkept key').mp hcontains
    rw [howners key' (not_same_point hkey)] at hpos
    exact Nat.lt_irrefl 0 hpos
  | entered _ _ hbuilt => exact ofShapes_point _ _ _ _ hbuilt

/-- The body of the cube is built, and its field has one owner. -/
theorem exists_build_base : ∃ place inv,
    (Inventory.build (ownSource baseLink) cubeParams).run (Inventory.start .standard 1) =
        (.ok place, inv) ∧
      inv.Accounted 1 ∧
      ∀ key, (inv.cache 0).owners key = if cubeKey.same key then 1 else 0 := by
  have hrole : (ownSource baseLink).role = .ok .link := rfl
  have hspacing : Body.checkSpacing cubeParams.spacing = .ok ⟨⟩ := rfl
  obtain ⟨f, inv, hobtain, -⟩ :=
    Checkers.exists_obtainField_cube (Inventory.start .standard 1) rfl rfl
  obtain ⟨b, hb⟩ := Inventory.exists_finish hrole (List.cons_ne_nil _ _)
    DistanceField.isBox_cube hspacing f (some ⟨0, cubeKey⟩)
  have hbuild := Inventory.run_build (placedShapes_origin _ _ cube) hspacing hobtain hb
  refine ⟨_, _, hbuild, ?_, fun key => ?_⟩
  · exact Inventory.accounted_build_ok (Inventory.accounted_start .standard 1)
      (Checkers.inRange_of_shared rfl) hbuild
  · obtain ⟨_, hkey, -, -, howners, -⟩ := Inventory.exists_lent rfl Nat.one_pos hobtain
    cases hkey
    exact (howners key).trans (Nat.zero_add _)

/-- Where only the field of the cube can be kept, the body of the point cannot be built, which costs
    nothing. -/
theorem exists_build_flange {inv : Inventory ℝ} (h : inv.Accounted 1)
    (howners : ∀ key, cubeKey.same key = false → (inv.cache 0).owners key = 0) :
    ∃ e inv', (Inventory.build (ownSource flangeLink) cubeParams).run inv = (.error e, inv') ∧
      ∀ key, (inv'.cache 0).owners key = (inv.cache 0).owners key := by
  have hwithout : ∀ {shapes field hold inv'},
      Inventory.placedShapes (ownSource flangeLink) = .ok shapes →
      (Inventory.obtainField shapes cubeParams).run inv ≠ (.ok (field, hold), inv') := by
    intro shapes field hold inv' hshapes
    cases (placedShapes_origin _ _ point).symm.trans hshapes
    exact obtainField_point (h.wellKept 0) howners
  cases hbuild : (Inventory.build (ownSource flangeLink) cubeParams).run inv with
  | mk outcome inv' =>
    cases outcome with
    | ok place =>
      have hway := Inventory.building (ownSource flangeLink) cubeParams inv
      rw [hbuild] at hway
      cases hway with
      | entered hshapes _ hobtain _ => exact absurd hobtain (hwithout hshapes)
    | error e =>
      have hlate : ¬Inventory.FailsLate (ownSource flangeLink) cubeParams inv := by
        rintro ⟨_, _, _, _, _, hshapes, -, hobtain, -⟩
        exact hwithout hshapes hobtain
      obtain ⟨lost, htook, hlost⟩ :=
        Inventory.took_failed_build rfl (h.size ▸ Nat.one_pos) hbuild
      cases hlost.mpr hlate
      exact ⟨e, inv', rfl, htook.owners⟩

/-- The cube has a body and an owner of its field by then, but the checker cannot be made. -/
theorem exists_make_flanged : ∃ e inv,
    (make flanged (some []) cubeParams).run (Inventory.start .standard 1) = (.error e, inv) ∧
      (inv.cache 0).owners cubeKey = 1 := by
  obtain ⟨_, inv₁, hbase, haccounted, howners⟩ := exists_build_base
  obtain ⟨e, inv₂, hflange, hsame⟩ := exists_build_flange haccounted fun key hkey => by
    rw [howners key, hkey]
    rfl
  refine ⟨e, inv₂, ?_, ?_⟩
  · rw [run_make, show neighbourPairs flanged (some []) = .ok [] from rfl]
    dsimp only
    rw [Inventory.proceed_eq_error, links_flanged, run_makeGeometries_cons, run_makeGeometry,
      hbase]
    refine Inventory.proceed_eq_error.mpr ?_
    rw [run_makeGeometries_cons, run_makeGeometry, hflange]
    rfl
  · rw [hsame cubeKey, howners cubeKey, if_pos same_cubeKey]

end Flange

/-! ## What is left -/

/-- A checker that cannot be made leaves behind the bodies that were built for the links before the
    one that failed, and at most one more field that was obtained for it. All of these fields have
    owners that nobody can release; the entries of the cache are as before only if there are none. -/
theorem make_of_failure [LawfulScalar α] (m : RobotModel α)
    (neighbours : Option (List (String × String))) (params : BodyParams α) (id : Nat)
    (hp : params.cache = some id) (inv inv' : Inventory α) (hid : id < inv.caches.size)
    (e : Error α) (h : (make m neighbours params).run inv = (.error e, inv')) :
    ∃ (built : List (Body α)) (lost : Option (FieldKey α)),
      inv'.bodies.toList = inv.bodies.toList ++ built ∧
      (∀ key, (inv'.cache id).owners key = (inv.cache id).owners key +
        built.countP (·.holds id key) + lost.toList.countP (·.same key)) ∧
      (FieldCache.SameEntries (inv'.cache id) (inv.cache id) ↔ built = [] ∧ lost = none) ∧
      ((neighbourPairs m neighbours = .error e ∧ built = [] ∧ lost = none) ∨
        ∃ before l after gs inv₁, m.links.values = before ++ l :: after ∧
          built.map Body.name = (withShapes before).map Link.name ∧
          (makeGeometries params before).run inv = (.ok gs, inv₁) ∧
          (Inventory.build (ownSource l) params).run inv₁ = (.error e, inv') ∧
          (lost = none ↔ ¬Inventory.FailsLate (ownSource l) params inv₁)) := by
  rw [run_make] at h
  cases hpairs : neighbourPairs m neighbours with
  | error e' =>
    rw [hpairs] at h
    cases h
    have htook : Inventory.Took id inv inv [] none := Inventory.took_nothing rfl rfl rfl
    exact ⟨[], none, htook.bodies, htook.owners, htook.same_iff, Or.inl ⟨rfl, rfl, rfl⟩⟩
  | ok pairs =>
    rw [hpairs] at h
    dsimp only at h
    rw [Inventory.proceed_eq_error] at h
    obtain ⟨before, l, after, gs, inv₁, hlinks, hbefore, hbuild⟩ :=
      exists_of_makeGeometries_error h
    obtain ⟨built, hnames, htook⟩ := took_makeGeometries hp hid hbefore
    obtain ⟨lost, htook', hlost⟩ :=
      Inventory.took_failed_build hp (htook.size.symm ▸ hid) hbuild
    have hall : Inventory.Took id inv inv' built lost := List.append_nil built ▸ htook.trans htook'
    exact ⟨built, lost, hall.bodies, hall.owners, hall.same_iff,
      Or.inr ⟨before, l, after, gs, inv₁, hlinks, hnames, hbefore, hbuild, hlost⟩⟩

/-- The cube has a body that belongs to no checker. -/
theorem make_of_failure_flanged : ∃ e inv',
    (make flanged (some []) Checkers.cubeParams).run (Inventory.start .standard 1) =
        (.error e, inv') ∧
      ∃ (built : List (Body ℝ)) (lost : Option (FieldKey ℝ)),
        inv'.bodies.toList = built ∧
        (∀ key, (inv'.cache 0).owners key =
          built.countP (·.holds 0 key) + lost.toList.countP (·.same key)) ∧
        (FieldCache.SameEntries (inv'.cache 0) FieldCache.empty ↔ built = [] ∧ lost = none) := by
  obtain ⟨e, inv', hmake, -⟩ := exists_make_flanged
  obtain ⟨built, lost, hbodies, howners, hsame, -⟩ :=
    make_of_failure flanged (some []) Checkers.cubeParams 0 rfl (Inventory.start .standard 1) inv'
      Nat.one_pos e hmake
  refine ⟨e, inv', hmake, built, lost, hbodies, fun key => (howners key).trans ?_, hsame⟩
  rw [Inventory.cache_start, show FieldCache.empty.owners key = 0 from rfl, Nat.zero_add]

/-- The checker of a model cannot be made, and a field that had no owner has one. -/
theorem exists_owners_ne_of_failed_make : ∃ e inv', flanged.Grown ∧
    (make flanged (some []) Checkers.cubeParams).run (Inventory.start .standard 1) =
        (.error e, inv') ∧
      ((Inventory.start Settings.standard 1).cache 0).owners Checkers.cubeKey = 0 ∧
      (inv'.cache 0).owners Checkers.cubeKey = 1 := by
  obtain ⟨e, inv', hmake, howners⟩ := exists_make_flanged
  exact ⟨e, inv', grown_flanged, hmake, rfl, howners⟩

end Clearance.RobotChecker
