import Clearance.Proofs.Field.Layout
import Clearance.Proofs.Field.Sign
import Clearance.Proofs.Shape.Solid
import Clearance.Proofs.Outcomes
import Clearance.Field.Build

/-!
# Plans of fields

What a successful plan of a field consists of, which voxels it marks, and when its field can be had.

* `FieldPlan.make_eq_ok`: the steps of making a plan.
* `FieldPlan.marked_eq_ok`, `FieldPlan.exists_marked`: the marked voxels are those whose centre a
  shape covers.
* `FieldPlan.inBounds_hull`: the bounding box of all shapes contains each of them.
* `FieldPlan.ofData_eq_ok`, `FieldPlan.exists_ofData`: the field of given distances.
* `FieldPlan.exists_field`: the field of marked voxels.
-/

namespace Clearance

namespace FieldPlan

/-! ## Plans -/

section Plan

variable {α : Type} [Scalar α] {settings : Settings α} {shapes : List (Shape α)}
  {poses : Option (List (PoseSource α))} {params : GridParams α} {plan : FieldPlan α}

omit [Scalar α] in
theorem validate_shapes (shapes : List (Shape α)) :
    (shapes.map ShapeSource.shape).mapM ShapeSource.validate =
    (.ok shapes : Except (Error α) _) := by
  rw [mapM_eq_ok, List.forall₂_map_left_iff, List.forall₂_same]
  exact fun s _ => rfl

/-- What a plan of shapes consists of. -/
theorem make_eq_ok : make settings (shapes.map .shape) poses params = .ok plan ↔
    shapes ≠ [] ∧ ∃ ps r boxes, alignPoses shapes.length poses = .ok ps ∧
      checkedResolution settings params.resolution = .ok r ∧ shapes.forM checkVolume = .ok ⟨⟩ ∧
      plan.shapes = List.zipWith PlacedShape.mk shapes ps ∧
      plan.shapes.mapM (fun p => p.shape.boundsAt p.pose) = .ok boxes ∧
      Layout.ofBounds (hull boxes).1 (hull boxes).2 (.real r) params.padding
        (some (params.maxDims.getD (.int Settings.maxDims))) = .ok (plan.layout, plan.coarsened) ∧
      plan.cutToFraction =
      (plan.coarsened.isSome && isFraction (params.maxDims.getD (.int Settings.maxDims))) := by
  constructor
  · intro h
    obtain ⟨shapes', hshapes, h⟩ := bind_eq_ok.mp h
    obtain rfl : shapes = shapes' := Except.ok.inj ((validate_shapes shapes).symm.trans hshapes)
    obtain ⟨hne, h⟩ := check_eq_ok.mp h
    obtain ⟨ps, hps, h⟩ := bind_eq_ok.mp h
    obtain ⟨r, hr, h⟩ := bind_eq_ok.mp h
    obtain ⟨_, hvolume, h⟩ := bind_eq_ok.mp h
    obtain ⟨boxes, hboxes, h⟩ := bind_eq_ok.mp h
    obtain ⟨layout, hlayout, h⟩ := bind_eq_ok.mp h
    obtain rfl := Except.ok.inj h
    exact ⟨by simpa using hne, ps, r, boxes, hps, hr, hvolume, rfl, Fault.lift_eq_ok.mp hboxes,
      hlayout, rfl⟩
  · rintro ⟨hne, ps, r, boxes, hps, hr, hvolume, hplaced, hboxes, hlayout, hcut⟩
    obtain ⟨placed, layout, coarsened, cut⟩ := plan
    dsimp only at hplaced hcut hboxes hlayout
    subst hplaced hcut
    refine bind_eq_ok.mpr ⟨shapes, validate_shapes shapes, check_eq_ok.mpr ⟨by simpa using hne, ?_⟩⟩
    refine bind_eq_ok.mpr ⟨ps, hps, bind_eq_ok.mpr ⟨r, hr, bind_eq_ok.mpr ⟨⟨⟩, hvolume, ?_⟩⟩⟩
    exact bind_eq_ok.mpr ⟨boxes, Fault.lift_eq_ok.mpr hboxes, bind_eq_ok.mpr ⟨_, hlayout, rfl⟩⟩

end Plan

/-! ## Marked voxels -/

section Marked

variable {plan : FieldPlan ℝ} {g : Grid Bool} {n : ℕ} {c : Vec3 ℕ}

/-- A test for each shape finds the points that some shape covers. -/
theorem containsAny_iff {shapes : List (PlacedShape ℝ)} {tests : List (Pose ℝ × (Vec3 ℝ → Bool))}
    (h : shapes.mapM (fun p => p.shape.inside.map fun inside => (p.pose, inside)) = .ok tests)
    (p : Vec3 ℝ) :
    containsAny tests p = true ↔ ∃ s ∈ shapes, s.Covers p := by
  have pair : ∀ {s : PlacedShape ℝ} {t},
      (s.shape.inside.map fun inside => (s.pose, inside)) = .ok t →
      t.1 = s.pose ∧ s.shape.inside = .ok t.2 := by
    intro s t ht
    obtain ⟨test, htest, rfl⟩ := map_eq_ok.mp ht
    exact ⟨rfl, htest⟩
  rw [containsAny, List.any_eq_true]
  constructor
  · rintro ⟨t, ht, hp⟩
    obtain ⟨s, hs, e⟩ := exists_of_mem_mapM h ht
    obtain ⟨hpose, htest⟩ := pair e
    refine ⟨s, hs, t.2, htest, ?_⟩
    rw [← hpose]
    exact hp
  · rintro ⟨s, hs, test, htest, hp⟩
    obtain ⟨t, ht, e⟩ := exists_of_mapM h hs
    obtain ⟨hpose, htest'⟩ := pair e
    obtain rfl : test = t.2 := Except.ok.inj (htest.symm.trans htest')
    refine ⟨t, ht, ?_⟩
    show t.2 (t.1.rowToLocal p) = true
    rw [hpose]
    exact hp

/-- The position of a voxel of a plan. -/
noncomputable def centerOf (plan : FieldPlan ℝ) (c : Vec3 ℕ) : Vec3 ℝ :=
  DistanceField.center plan.layout.origin plan.layout.resolution c.x c.y c.z

/-- What the marked voxels of a plan are: those whose centre some shape covers. At least one is
    marked. -/
theorem marked_eq_ok (h : plan.marked = .ok (g, n)) :
    (2 ≤ plan.layout.dims.x ∧ 2 ≤ plan.layout.dims.y ∧ 2 ≤ plan.layout.dims.z) ∧
      plan.cutToFraction = false ∧
      (g.nx = plan.layout.dims.x.toNat ∧ g.ny = plan.layout.dims.y.toNat ∧
        g.nz = plan.layout.dims.z.toNat) ∧
      (∃ c, g.Holds c) ∧ ∀ c, g.Within c →
      (g.Holds c ↔ ∃ s ∈ plan.shapes, s.Covers (plan.centerOf c)) := by
  obtain ⟨g', hg, h⟩ := bind_eq_ok.mp h
  obtain ⟨hcount, h⟩ := check_eq_ok.mp h
  obtain ⟨rfl, -⟩ := Prod.mk.inj (Except.ok.inj h)
  unfold occupancy at hg
  obtain ⟨hdims, hg⟩ := check_eq_ok.mp hg
  obtain ⟨tests, htests, hg⟩ := bind_eq_ok.mp hg
  obtain ⟨hcut, hg⟩ := check_eq_ok.mp hg
  obtain rfl := Except.ok.inj hg
  simp only [Vec3.any, Bool.or_eq_true, decide_eq_true_eq, not_or, not_lt] at hdims
  refine ⟨⟨hdims.1.1, hdims.1.2, hdims.2⟩, by simpa using hcut, ⟨rfl, rfl, rfl⟩,
    Grid.holds_of_count hcount, ?_⟩
  intro c hc
  rw [← containsAny_iff (Fault.lift_eq_ok.mp htests)]
  have e := Grid.getD_ofFn (fun i j k => containsAny tests
    (DistanceField.center plan.layout.origin plan.layout.resolution i j k)) false hc.1 hc.2.1 hc.2.2
  rw [centerOf, ← e]
  exact ⟨fun hh => hh.2, fun hv => ⟨hc, hv⟩⟩

/-- A plan has marked voxels if the centre of some voxel is covered. -/
theorem exists_marked
    (hdims : 2 ≤ plan.layout.dims.x ∧ 2 ≤ plan.layout.dims.y ∧ 2 ≤ plan.layout.dims.z)
    (hs : ∀ s ∈ plan.shapes, s.shape.IsPrimitive) (hcut : plan.cutToFraction = false) {c : Vec3 ℕ}
    (hc : (c.x : ℤ) < plan.layout.dims.x ∧ (c.y : ℤ) < plan.layout.dims.y ∧
      (c.z : ℤ) < plan.layout.dims.z)
    (hcov : ∃ s ∈ plan.shapes, s.Covers (plan.centerOf c)) : ∃ g n, plan.marked = .ok (g, n) := by
  have tests : ∃ tests,
      plan.shapes.mapM (fun p => p.shape.inside.map fun inside => (p.pose, inside)) = .ok tests := by
    refine exists_mapM fun s hmem => ?_
    obtain ⟨test, e⟩ := Shape.exists_inside (hs s hmem)
    exact ⟨(s.pose, test), map_eq_ok.mpr ⟨test, e, rfl⟩⟩
  obtain ⟨tests, htests⟩ := tests
  let occupied : Grid Bool :=
    Grid.ofFn plan.layout.dims.x.toNat plan.layout.dims.y.toNat plan.layout.dims.z.toNat fun i j k =>
      containsAny tests (DistanceField.center plan.layout.origin plan.layout.resolution i j k)
  have hocc : plan.occupancy = .ok occupied := by
    unfold occupancy
    refine check_eq_ok.mpr ⟨?_, bind_eq_ok.mpr ⟨tests, Fault.lift_eq_ok.mpr htests,
      check_eq_ok.mpr ⟨by simp [hcut], rfl⟩⟩⟩
    simp only [Vec3.any, Bool.or_eq_true, decide_eq_true_eq, not_or, not_lt]
    exact ⟨⟨hdims.1, hdims.2.1⟩, hdims.2.2⟩
  have hw : occupied.Within c :=
    ⟨Int.lt_toNat.mpr hc.1, Int.lt_toNat.mpr hc.2.1, Int.lt_toNat.mpr hc.2.2⟩
  have hholds : occupied.Holds c := by
    refine ⟨hw, (Grid.getD_ofFn _ _ hw.1 hw.2.1 hw.2.2).trans ?_⟩
    exact (containsAny_iff htests _).mpr hcov
  exact ⟨occupied, occupied.count id,
    bind_eq_ok.mpr ⟨occupied, hocc, check_eq_ok.mpr ⟨Grid.count_ne_zero hholds, rfl⟩⟩⟩

end Marked

/-! ## Bounds -/

section Hull

variable {b : Vec3 ℝ × Vec3 ℝ} {bs : List (Vec3 ℝ × Vec3 ℝ)} {p : Vec3 ℝ}

theorem hull_cons (b : Vec3 ℝ × Vec3 ℝ) (bs : List (Vec3 ℝ × Vec3 ℝ)) : hull (b :: bs) =
    (bs.foldl (fun lo c => lo.min c.1) b.1, bs.foldl (fun hi c => hi.max c.2) b.2) := by
  unfold hull
  induction bs generalizing b with
  | nil => rfl
  | cons c bs ih => exact ih (b.1.min c.1, b.2.max c.2)

/-- The bounding box of boxes contains each of them. -/
theorem inBounds_hull (hb : b ∈ bs) (hp : InBounds b p) : InBounds (hull bs) p := by
  cases bs with
  | nil => exact absurd hb List.not_mem_nil
  | cons b' bs =>
    obtain ⟨hl, hlow⟩ :=
      Vec3.foldl_below (f := fun lo (c : Vec3 ℝ × Vec3 ℝ) => lo.min c.1) (g := Prod.fst)
      (fun m b => ⟨Vec3.min_below_left, Vec3.min_below_right⟩) bs b'.1
    obtain ⟨hh, hhigh⟩ :=
      Vec3.below_foldl (f := fun hi (c : Vec3 ℝ × Vec3 ℝ) => hi.max c.2) (g := Prod.snd)
      (fun m b => ⟨Vec3.below_max_left, Vec3.below_max_right⟩) bs b'.2
    rw [hull_cons]
    rcases List.mem_cons.mp hb with rfl | hb
    · exact ⟨hl.trans hp.1, hp.2.trans hh⟩
    · exact ⟨(hlow b hb).trans hp.1, hp.2.trans (hhigh b hb)⟩

end Hull

/-! ## Fields -/

section Field

variable {plan : FieldPlan ℝ} {g : Grid Bool} {f : DistanceField ℝ}

/-- A bound that is not written with a fraction is an integer. -/
theorem eq_intCast_of_not_isFraction {given : Given ℝ} {bound : ℝ} (h : isFraction given = false)
    (hb : given.compare? = .ok bound) : ∃ k : ℤ, bound = k := by
  cases given with
  | int k =>
    have e : (Given.int k : Given ℝ).compare? = .ok (k : ℝ) := if_pos Exact.isFinite_eq
    exact ⟨k, Except.ok.inj (hb.symm.trans e)⟩
  | real x => simp [isFraction] at h
  | bool b =>
    refine ⟨if b then 1 else 0, (Except.ok.inj hb).symm.trans ?_⟩
    cases b <;> simp
  | text s spelled => cases hb
  | other => cases hb

/-- What a field with given distances consists of. -/
theorem ofData_eq_ok {data : Grid ℝ} {origin : Vec3 ℝ} {r : ℝ}
    (h : DistanceField.ofData data origin r = .ok f) :
    f.origin = origin ∧ f.resolution = r ∧ f.data = data ∧ 0 < r ∧ 2 ≤ data.nx ∧ 2 ≤ data.ny ∧
    2 ≤ data.nz := by
  obtain ⟨_, hdims, h⟩ := bind_eq_ok.mp h
  obtain ⟨_, hres, h⟩ := bind_eq_ok.mp h
  obtain ⟨_, -, h⟩ := bind_eq_ok.mp h
  obtain rfl := Except.ok.inj h
  unfold DistanceField.checkDims at hdims
  unfold DistanceField.checkResolution at hres
  split_ifs at hdims with hd
  split_ifs at hres with hr
  simp only [Bool.or_eq_true, decide_eq_true_eq, not_or, not_lt] at hd
  simp only [Exact.isFinite_eq, Bool.true_and, Exact.lt_iff, Exact.zero_eq] at hr
  exact ⟨rfl, rfl, rfl, hr, hd.1.1, hd.1.2, hd.2⟩

/-- The last centre along an axis whose voxels are counted by an integer. -/
theorem coord_last {o r : ℝ} {k : ℤ} (hk : 2 ≤ k) :
    DistanceField.coord o r (k.toNat - 1) = o + (k - 1) * r := by
  have e : ((k.toNat - 1 : ℕ) : ℝ) = k - 1 := by
    have hz : ((k.toNat - 1 : ℕ) : ℤ) = k - 1 := by omega
    exact_mod_cast congrArg (Int.cast : ℤ → ℝ) hz
  rw [DistanceField.coord_eq, e]

theorem le_coord_last {o r lo hi : ℝ} {k : ℤ} (hk : 2 ≤ k) (h : Layout.SurroundsAxis o r k lo hi) :
    hi ≤ DistanceField.coord o r (k.toNat - 1) := by
  rw [coord_last hk]
  exact h.behind.le

/-- A coordinate of an interval that is surrounded along an axis is at no end of the axis. -/
theorem not_outer {o r lo hi : ℝ} {k : ℤ} {i : ℕ} (hk : 2 ≤ k)
    (h : Layout.SurroundsAxis o r k lo hi) (hlo : lo ≤ DistanceField.coord o r i)
    (hhi : DistanceField.coord o r i ≤ hi) : ¬ (i = 0 ∨ i + 1 = k.toNat) := by
  rintro (rfl | e)
  · rw [DistanceField.coord_eq, Nat.cast_zero, zero_mul, add_zero] at hlo
    exact absurd h.before (not_lt.mpr hlo)
  · rw [show i = k.toNat - 1 by omega, coord_last hk] at hhi
    exact absurd h.behind (not_lt.mpr hhi)

theorem ascending_of_pos {o r : ℝ} (hr : 0 < r) (n : ℕ) : DistanceField.ascending o r n = true := by
  rw [DistanceField.ascending, List.all_eq_true]
  intro i _
  rw [Exact.lt_iff, DistanceField.coord_eq, DistanceField.coord_eq]
  push_cast
  nlinarith

/-- Distances on a grid with cells have a field, if the size of a voxel is positive. -/
theorem exists_ofData {data : Grid ℝ} {r : ℝ} (hdata : 2 ≤ data.nx ∧ 2 ≤ data.ny ∧ 2 ≤ data.nz) (hr : 0 < r)
    (origin : Vec3 ℝ) : ∃ f, DistanceField.ofData data origin r = .ok f := by
  have hdims : (DistanceField.checkDims data.nx data.ny data.nz : Except (Error ℝ) Unit) = .ok ⟨⟩ := by
    rw [DistanceField.checkDims, if_neg]
    simp only [Bool.or_eq_true, decide_eq_true_eq]
    omega
  have hres : DistanceField.checkResolution r = .ok ⟨⟩ := if_pos (by simp [hr])
  have hcenters : DistanceField.checkCenters origin r data = .ok ⟨⟩ := if_pos (by simp [ascending_of_pos hr])
  exact ⟨_, bind_eq_ok.mpr ⟨⟨⟩, hdims, bind_eq_ok.mpr ⟨⟨⟩, hres, bind_eq_ok.mpr ⟨⟨⟩, hcenters, rfl⟩⟩⟩⟩

/-- Marked voxels of a positive size have a field. -/
theorem exists_field (hm : plan.marked = .ok (g, n)) (hr : 0 < plan.layout.resolution) :
    ∃ f, plan.field g = .ok f := by
  obtain ⟨⟨hx, hy, hz⟩, -, ⟨hnx, hny, hnz⟩, -⟩ := marked_eq_ok hm
  have hdims : 2 ≤ g.nx ∧ 2 ≤ g.ny ∧ 2 ≤ g.nz := by omega
  exact exists_ofData hdims hr _

end Field

end FieldPlan

end Clearance
