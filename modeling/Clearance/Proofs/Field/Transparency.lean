import Clearance.Proofs.Field.Directions
import Clearance.Proofs.Field.Separation

/-!
# A cache is not noticed

In exact arithmetic, whatever was asked of a cache and given back to it, it hands out for a request
the field that would be built for it, and refuses the request if no field can be built.

* `FieldRequest.exists_key`: a request that has a field has a key.
* `FieldRequest.ToldApart`: rounding confuses no two numbers of a list of requests.
* `FieldCache.toOption_ask_run`: the cache compared with building.
-/

namespace Clearance

/-! ## Requests that have a field -/

namespace FieldRequest

variable {r : FieldRequest ℝ} {field : DistanceField ℝ}

/-- A parameter that stands for a scalar can be part of a key. -/
theorem checkParam_of_toScalar {given : Given ℝ} {x : ℝ} (h : given.toScalar = .ok x) :
    FieldKey.checkParam (some given) = .ok () := by
  cases given with
  | other => cases h
  | _ => rfl

theorem checkParam_padding {padding : Option (Given ℝ)} {m : Layout.Margin ℝ}
    (h : Layout.Margin.ofPadding padding = .ok m) : FieldKey.checkParam padding = .ok () := by
  cases padding with
  | none => rfl
  | some given =>
    obtain ⟨pad, hpad, -⟩ := bind_eq_ok.mp h
    exact checkParam_of_toScalar (Fault.lift_eq_ok.mp hpad)

theorem checkParam_maxDims {maxDims : Option (Given ℝ)} {bound : ℝ}
    (h : (maxDims.getD (.int Settings.maxDims)).compare? = .ok bound) :
    FieldKey.checkParam maxDims = .ok () := by
  cases maxDims with
  | none => rfl
  | some given =>
    cases given with
    | other => cases h
    | _ => rfl

/-- A resolution that passes the check is part of a key. -/
theorem exists_resolution {x : ℝ}
    (h : FieldPlan.checkedResolution r.settings r.params.resolution = .ok x) :
    ∃ given, r.resolution = .ok given ∧ FieldKey.checkParam (some given) = .ok () := by
  unfold FieldPlan.checkedResolution at h
  unfold resolution
  cases hres : r.params.resolution with
  | none =>
    rw [hres] at h
    obtain ⟨y, hy, -⟩ := bind_eq_ok.mp h
    exact ⟨.real y, map_eq_ok.mpr ⟨y, hy, rfl⟩, rfl⟩
  | some given =>
    rw [hres] at h
    obtain ⟨y, hy, -⟩ := bind_eq_ok.mp h
    exact ⟨given, rfl, checkParam_of_toScalar (Fault.lift_eq_ok.mp hy)⟩

/-- A request that has a field has a key. -/
theorem exists_key (h : r.field = .ok field) : ∃ key, r.key = .ok key := by
  obtain ⟨plan, hplan, -⟩ := DistanceField.ofShapes_eq_ok.mp h
  obtain ⟨ts, hts, -⟩ := bind_eq_ok.mp hplan
  have hshapes := ShapeSource.eq_of_validate hts
  rw [hshapes] at hplan
  obtain ⟨-, ps, x, boxes, hps, hx, -, -, -, hlayout, -⟩ := FieldPlan.make_eq_ok.mp hplan
  obtain ⟨-, margin, bound, -, hmargin, hbound, -⟩ := Layout.ofBounds_eq_ok.mp hlayout
  obtain ⟨given, hgiven, hresolution⟩ := exists_resolution hx
  have hposes : r.poseSources.mapM PoseSource.toPose = .ok ps := by
    rw [poseSources, hshapes, List.length_map]
    exact (FieldPlan.alignPoses_eq_ok.mp hps).1
  have hparams : [some given, r.params.padding, r.params.maxDims].forM FieldKey.checkParam =
      .ok () := by
    refine forM_eq_ok.mpr fun param hparam => ?_
    simp only [List.mem_cons, List.not_mem_nil, or_false] at hparam
    rcases hparam with rfl | rfl | rfl
    · exact hresolution
    · exact checkParam_padding hmargin
    · exact checkParam_maxDims hbound
  exact ⟨_, key_eq_ok.mpr ⟨given, ps, ts, hgiven, hposes, hts, hparams, rfl⟩⟩

end FieldRequest

/-! ## Runs -/

namespace FieldRequest

/-- Rounding confuses no two parameters of the shapes of the requests, and no two entries of their
    poses. -/
structure ToldApart (rs : List (FieldRequest ℝ)) : Prop where
  shapes : {x | ∃ r ∈ rs, x ∈ r.shapeNumbers}.InjOn (Scalar.roundPlaces keyPlaces)
  poses : {x | ∃ r ∈ rs, x ∈ r.poseNumbers}.InjOn (Scalar.roundPlaces keyPlaces)

end FieldRequest

namespace FieldCache

open FieldRequest (IsPlain ToldApart)

variable {past : List (Call ℝ)} {r : FieldRequest ℝ} {reads : String → Option ℝ}

theorem sharesField_of_toldApart (hplain : ∀ q ∈ r :: asked past, q.IsPlain reads)
    (hapart : ToldApart (r :: asked past)) {r' : FieldRequest ℝ} (hr' : r' ∈ asked past) :
    SharesField r' r := by
  have hr := List.mem_cons_self (a := r) (l := asked past)
  have hmem := List.mem_cons_of_mem r hr'
  exact FieldRequest.sharesField (hplain r hr) (hplain r' hmem)
    hapart.shapes (fun _ hx => ⟨r, hr, hx⟩) (fun _ hx => ⟨r', hmem, hx⟩)
    hapart.poses (fun _ hx => ⟨r, hr, hx⟩) (fun _ hx => ⟨r', hmem, hx⟩)

/-- Whatever was asked of a cache and given back to it, a request is answered as if there were no
    cache: with the field that is built for it, found or not, or with no field if there is none. The
    shapes are boxes, spheres and cylinders, the bounds on the number of voxels are integers, and
    rounding confuses no two numbers of what was ever asked for. -/
theorem toOption_ask_run (hplain : ∀ q ∈ r :: asked past, q.IsPlain reads)
    (hapart : ToldApart (r :: asked past)) :
    ((empty.run past).ask r).outcome.toOption.map Prod.fst = r.field.toOption := by
  have hhands : (empty.run past).HandsOut r :=
    handsOut_run wellKept_empty handsOutBuilt_empty fun r' hr' =>
      sharesField_of_toldApart hplain hapart hr'
  have hiff : ∀ f, (∃ key, ((empty.run past).ask r).outcome = .ok (f, key)) ↔ r.field = .ok f := by
    intro f
    rw [exists_ask_iff hhands]
    constructor
    · rintro ⟨key, field, hkey, hfield, rfl⟩
      rwa [DistanceField.copy_of_ofShapes hfield]
    · intro hfield
      obtain ⟨key, hkey⟩ := FieldRequest.exists_key hfield
      exact ⟨key, f, hkey, hfield, (DistanceField.copy_of_ofShapes hfield).symm⟩
  cases hask : ((empty.run past).ask r).outcome with
  | ok got =>
    rw [(hiff got.1).mp ⟨got.2, hask⟩]
    rfl
  | error e =>
    cases hfield : r.field with
    | error e' => rfl
    | ok f =>
      obtain ⟨key, hok⟩ := (hiff f).mpr hfield
      rw [hask] at hok
      cases hok

/-! ## A cube -/

section Cube

open DistanceField (cube cubeGrid exists_cube)

/-- The cube at the origin, with the resolution written as a scalar. -/
noncomputable def cubeRequest : FieldRequest ℝ := ⟨.standard, [.shape cube], none, cubeGrid⟩

/-- The same cube, with a pose for it and the resolution written as an integer. -/
noncomputable def countedRequest : FieldRequest ℝ :=
  ⟨.standard, [.shape cube], some [.pose .origin], { cubeGrid with resolution := some (.int 1) }⟩

/-- Something that is a shape of no particular kind in the place of the cube. -/
noncomputable def refusedRequest : FieldRequest ℝ := { cubeRequest with shapes := [.abstract] }

theorem roundPlaces_intCast (n : ℕ) (k : ℤ) : Scalar.roundPlaces n (k : ℝ) = k := by
  have hround : ∀ m : ℤ, Exact.roundEven (m : ℝ) = m := by
    intro m
    rw [Exact.roundEven, Int.floor_intCast, sub_self, if_pos (by norm_num)]
  show (Exact.roundEven ((k : ℝ) * 10 ^ n) : ℝ) / 10 ^ n = k
  rw [show (k : ℝ) * 10 ^ n = ((k * 10 ^ n : ℤ) : ℝ) by push_cast; rfl, hround]
  push_cast
  field_simp

/-- Rounding confuses no two integers. -/
theorem injOn_of_integers {S : Set ℝ} (h : ∀ x ∈ S, ∃ k : ℤ, x = k) :
    S.InjOn (Scalar.roundPlaces keyPlaces) := by
  intro x hx y hy hxy
  obtain ⟨k, rfl⟩ := h x hx
  obtain ⟨l, rfl⟩ := h y hy
  rwa [roundPlaces_intCast, roundPlaces_intCast] at hxy

/-- The requests for the cube, and the one that is refused. -/
inductive IsOfCube : FieldRequest ℝ → Prop where
  | scalar : IsOfCube cubeRequest
  | counted : IsOfCube countedRequest
  | refused : IsOfCube refusedRequest

theorem IsOfCube.integer_shapeNumbers {r : FieldRequest ℝ} (hr : IsOfCube r) :
    ∀ x ∈ r.shapeNumbers, ∃ k : ℤ, x = k := by
  have hcube : ∀ s, ShapeSource.shape s ∈ r.shapes → s = cube := by
    intro s hs
    cases hr with
    | refused => cases List.mem_singleton.mp hs
    | _ => exact ShapeSource.shape.inj (List.mem_singleton.mp hs)
  rintro x ⟨s, hs, hx⟩
  rw [hcube s hs] at hx
  simp only [cube, Shape.numbers, Vec3.toList, List.mem_cons, List.not_mem_nil, or_false,
    or_self] at hx
  exact ⟨8, by rw [hx]; norm_num⟩

theorem IsOfCube.integer_poseNumbers {r : FieldRequest ℝ} (hr : IsOfCube r) :
    ∀ x ∈ r.poseNumbers, ∃ k : ℤ, x = k := by
  have horigin : ∀ source ∈ r.poseSources, source.toPose = .ok .origin := by
    intro source hsource
    cases hr with
    | counted =>
      obtain rfl := List.mem_singleton.mp hsource
      exact Pose.toPose_origin
    | _ =>
      obtain rfl := List.mem_singleton.mp hsource
      rfl
  rintro x ⟨source, hsource, p, hp, hx⟩
  obtain rfl := Except.ok.inj ((horigin source hsource).symm.trans hp)
  simp only [Pose.numbers, Pose.origin, Mat3.entries, Mat3.identity, Vec3.toList,
    List.mem_append, List.mem_cons, List.not_mem_nil, or_false, Exact.zero_eq, Exact.one_eq] at hx
  have hbit : x = 0 ∨ x = 1 := by tauto
  rcases hbit with rfl | rfl
  · exact ⟨0, by norm_num⟩
  · exact ⟨1, by norm_num⟩

theorem IsOfCube.isPlain {r : FieldRequest ℝ} (hr : IsOfCube r) : r.IsPlain fun _ => none := by
  cases hr with
  | refused =>
    refine ⟨fun s hs => ?_, nofun, fun g hg => ?_, fun g hg => ?_⟩
    · cases List.mem_singleton.mp hs
    · obtain rfl := Option.some.inj hg
      trivial
    · obtain rfl := Option.some.inj hg
      trivial
  | _ =>
    refine ⟨fun s hs => ?_, nofun, fun g hg => ?_, fun g hg => ?_⟩
    · obtain rfl := ShapeSource.shape.inj (List.mem_singleton.mp hs)
      trivial
    · obtain rfl := Option.some.inj hg
      trivial
    · obtain rfl := Option.some.inj hg
      trivial

/-- The cube is asked for with the resolution as an integer, then something that is no shape of a
    particular kind in vain, and then the cube again with the resolution as a scalar: what is handed
    out is the field that is built for the last request. -/
theorem toOption_ask_run_cube : ∃ f, cubeRequest.field = .ok f ∧
    ((empty.run [.acquire countedRequest, .acquire refusedRequest]).ask
      cubeRequest).outcome.toOption.map Prod.fst = some f := by
  have hcubes : ∀ r ∈ cubeRequest :: asked [.acquire countedRequest, .acquire refusedRequest],
      IsOfCube r := by
    intro r hr
    simp only [asked, Call.request?, List.filterMap_cons, List.filterMap_nil, List.mem_cons,
      List.not_mem_nil, or_false] at hr
    rcases hr with rfl | rfl | rfl
    · exact .scalar
    · exact .counted
    · exact .refused
  have happart : ToldApart
      (cubeRequest :: asked [.acquire countedRequest, .acquire refusedRequest]) :=
    ⟨injOn_of_integers fun x ⟨r, hr, hx⟩ => (hcubes r hr).integer_shapeNumbers x hx,
      injOn_of_integers fun x ⟨r, hr, hx⟩ => (hcubes r hr).integer_poseNumbers x hx⟩
  obtain ⟨f, hf, -⟩ := exists_cube (show FieldPlan.alignPoses 1 none = .ok [Pose.origin] from rfl)
  have hfield : cubeRequest.field = .ok f := hf
  refine ⟨f, hfield, ?_⟩
  rw [toOption_ask_run (fun r hr => (hcubes r hr).isPlain) happart, hfield]
  rfl

end Cube

end FieldCache

end Clearance
