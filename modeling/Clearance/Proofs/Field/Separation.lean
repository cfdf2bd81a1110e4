import Clearance.Proofs.Field.Requests
import Clearance.Proofs.Field.Shapes

/-!
# What keys tell apart

In exact arithmetic the key of a request determines its field, as long as rounding does not confuse
two numbers of the requests. The names of poses, the way in which a number is written, and the event
of making a grid coarser are not part of the field.

* `FieldRequest.shapeNumbers`, `FieldRequest.poseNumbers`: the numbers that keys round.
* `FieldRequest.IsPlain`: the requests that are compared.
* `Shape.eq_of_same_digest`, `Pose.unnamed_eq_of_same`: shapes and poses with the same part of a
  key.
* `Given.toScalar_eq_of_same`: parameters with the same part of a key.
* `FieldPlan.exists_make_of_same`, `FieldPlan.marked_eq_of_unnamed`: plans that differ in nothing
  that matters.
* `FieldRequest.sharesField`: requests with the same key have the same field.
-/

namespace Clearance

/-! ## Rounding -/

namespace Exact

theorem roundScaled_eq (n : ℕ) (x : ℝ) : Scalar.roundScaled n x = Scalar.roundPlaces n x := by
  have hscale : (Scalar.ofInt (Nat.pow 10 n : ℕ) : ℝ) = 10 ^ n := by
    rw [ofInt_eq, Nat.pow_eq]
    push_cast
    rfl
  unfold Scalar.roundScaled
  simp only [hscale]
  rfl

end Exact

/-- Lists whose parts are the same have the same images, if this holds of each two members. -/
theorem FieldKey.map_eq_of_sameAll {β γ δ : Type} {same : β → β → Bool} {part : γ → β} {f : γ → δ}
    {as bs : List γ} (h : sameAll same (as.map part) (bs.map part) = true)
    (hf : ∀ a ∈ as, ∀ b ∈ bs, same (part a) (part b) = true → f a = f b) : as.map f = bs.map f := by
  induction as generalizing bs with
  | nil =>
    cases bs with
    | nil => rfl
    | cons b bs => cases h
  | cons a as ih =>
    cases bs with
    | nil => cases h
    | cons b bs =>
      rw [List.map_cons, List.map_cons, sameAll, Bool.and_eq_true_iff] at h
      rw [List.map_cons, List.map_cons, hf a List.mem_cons_self b List.mem_cons_self h.1]
      rw [ih h.2 fun a ha b hb => hf a (List.mem_cons_of_mem _ ha) b (List.mem_cons_of_mem _ hb)]

/-- Parameters that are the same are both missing, or both given and the same. -/
theorem FieldKey.exists_of_sameOption {α : Type} [Scalar α] {a b : Option (Given α)}
    (h : sameOption a b = true) :
    (a = none ∧ b = none) ∨ ∃ g k, a = some g ∧ b = some k ∧ g.same k = true := by
  cases a with
  | none =>
    cases b with
    | none => exact .inl ⟨rfl, rfl⟩
    | some k => cases h
  | some g =>
    cases b with
    | none => cases h
    | some k => exact .inr ⟨g, k, rfl, rfl, h⟩

/-! ## Shapes -/

namespace Shape

/-- The parameters of a box, a sphere or a cylinder. -/
def numbers {α : Type} : Shape α → List α
  | .box extents => extents.toList
  | .sphere radius => [radius]
  | .cylinder radius height => [radius, height]
  | .mesh _ => []

/-- A shape is known by its digest, unless rounding confuses its parameters. -/
theorem eq_of_same_digest {S : Set ℝ} (hS : S.InjOn (Scalar.roundPlaces keyPlaces)) {s t : Shape ℝ}
    (hs : s.IsPrimitive) (hsS : ∀ x ∈ s.numbers, x ∈ S) (htS : ∀ x ∈ t.numbers, x ∈ S)
    (h : s.digest.same t.digest = true) : s = t := by
  cases s with
  | mesh m => exact hs.elim
  | box a =>
    cases t with
    | box b =>
      simp only [digest, Digest.same, Vec3.map, Exact.roundScaled_eq, Bool.and_eq_true_iff,
        Exact.eq_iff] at h
      simp only [numbers, Vec3.toList, List.forall_mem_cons] at hsS htS
      have hx := hS hsS.1 htS.1 h.1.1
      have hy := hS hsS.2.1 htS.2.1 h.1.2
      have hz := hS hsS.2.2.1 htS.2.2.1 h.2
      exact congrArg box (Vec3.ext hx hy hz)
    | _ => cases h
  | sphere a =>
    cases t with
    | sphere b =>
      rw [digest, digest, Digest.same, Exact.eq_iff] at h
      exact congrArg sphere (hS (hsS a List.mem_cons_self) (htS b List.mem_cons_self) h)
    | _ => cases h
  | cylinder a k =>
    cases t with
    | cylinder b l =>
      rw [digest, digest, Digest.same, Bool.and_eq_true_iff, Exact.eq_iff, Exact.eq_iff] at h
      simp only [numbers, List.forall_mem_cons] at hsS htS
      rw [hS hsS.1 htS.1 h.1, hS hsS.2.1 htS.2.1 h.2]
    | _ => cases h

end Shape

/-! ## Poses -/

namespace Pose

/-- The entries of a pose: those of its rotation, and its position. -/
def numbers {α : Type} (p : Pose α) : List α := p.rotation.entries ++ p.position.toList

/-- The pose without its name. -/
def unnamed {α : Type} (p : Pose α) : Pose α := { p with name := "" }

theorem eq_of_sameVec {S : Set ℝ} (hS : S.InjOn (Scalar.roundPlaces keyPlaces)) {u v : Vec3 ℝ}
    (hu : ∀ x ∈ u.toList, x ∈ S) (hv : ∀ x ∈ v.toList, x ∈ S)
    (h : FieldKey.sameVec (u.map (Scalar.roundScaled keyPlaces))
      (v.map (Scalar.roundScaled keyPlaces)) = true) : u = v := by
  simp only [FieldKey.sameVec, Vec3.map, Exact.roundScaled_eq, Bool.and_eq_true_iff,
    Exact.eq_iff] at h
  simp only [Vec3.toList, List.forall_mem_cons] at hu hv
  exact Vec3.ext (hS hu.1 hv.1 h.1.1) (hS hu.2.1 hv.2.1 h.1.2) (hS hu.2.2.1 hv.2.2.1 h.2)

/-- A pose is known up to its name by its rounded entries, unless rounding confuses them. -/
theorem unnamed_eq_of_same {S : Set ℝ} (hS : S.InjOn (Scalar.roundPlaces keyPlaces)) {p q : Pose ℝ}
    (hp : ∀ x ∈ p.numbers, x ∈ S) (hq : ∀ x ∈ q.numbers, x ∈ S)
    (h : FieldKey.samePose (FieldKey.roundedPose p) (FieldKey.roundedPose q) = true) :
    p.unnamed = q.unnamed := by
  simp only [FieldKey.samePose, FieldKey.roundedPose, Bool.and_eq_true_iff] at h
  simp only [numbers, Mat3.entries, List.forall_mem_append] at hp hq
  have h1 := eq_of_sameVec hS hp.1.1.1 hq.1.1.1 h.1.1.1
  have h2 := eq_of_sameVec hS hp.1.1.2 hq.1.1.2 h.1.1.2
  have h3 := eq_of_sameVec hS hp.1.2 hq.1.2 h.1.2
  have hshift := eq_of_sameVec hS hp.2 hq.2 h.2
  obtain ⟨v, ⟨a, b, c⟩, name⟩ := p
  obtain ⟨v', ⟨a', b', c'⟩, name'⟩ := q
  cases h1
  cases h2
  cases h3
  cases hshift
  rfl

end Pose

/-! ## Parameters -/

namespace Given

/-- A text stands for the number that it is read as. -/
def IsReadBy {α : Type} (reads : String → Option α) : Given α → Prop
  | .text s x => x = reads s
  | _ => True

theorem toScalar_of_int? {g : Given ℝ} {n : ℤ} (h : g.int? = some n) :
    g.toScalar = .ok (n : ℝ) := by
  cases g with
  | int m =>
    obtain rfl := Option.some.inj h
    exact if_pos Exact.isFinite_eq
  | bool b =>
    obtain rfl := Option.some.inj h
    cases b <;> simp [toScalar]
  | _ => cases h

theorem compare?_of_int? {g : Given ℝ} {n : ℤ} (h : g.int? = some n) :
    g.compare? = .ok (n : ℝ) := by
  rw [← toScalar_of_int? h]
  cases g with
  | text s x => cases h
  | _ => rfl

theorem not_isFraction_of_int? {g : Given ℝ} {n : ℤ} (h : g.int? = some n) :
    FieldPlan.isFraction g = false := by
  cases g with
  | real x => cases h
  | _ => rfl

theorem eq_of_equalsInt {x : ℝ} {n : ℤ} (h : equalsInt x n = true) : x = n :=
  Exact.eq_iff.mp (equalsInt_iff.mp h).2

/-- Parameters that are the same stand for the same scalar. -/
theorem toScalar_eq_of_same {reads : String → Option ℝ} {a b : Given ℝ} (ha : a.IsReadBy reads)
    (hb : b.IsReadBy reads) (h : a.same b = true) : a.toScalar = b.toScalar := by
  have hsame := same_iff.mp h
  clear h
  cases hsame with
  | text s x y =>
    obtain rfl : x = reads s := ha
    obtain rfl : y = reads s := hb
    rfl
  | scalars h => rw [Exact.eq_iff.mp h]
  | @notNumbers x y h _ =>
    rw [Exact.eq_iff.mpr (rfl : x = x)] at h
    cases h
  | integers h h' => rw [toScalar_of_int? h, toScalar_of_int? h']
  | scalarInteger h h' =>
    rw [toScalar_of_int? h', eq_of_equalsInt h]
    rfl
  | integerScalar h h' =>
    rw [toScalar_of_int? h, eq_of_equalsInt h']
    rfl

/-- Integers that are the same are one integer. -/
theorem int?_eq_of_same {a b : Given ℝ} {m n : ℤ} (ha : a.int? = some m) (hb : b.int? = some n)
    (h : a.same b = true) : m = n := by
  have hsame := (same_iff.mp h)
  cases hsame with
  | integers ha' hb' =>
    obtain rfl := Option.some.inj (ha.symm.trans ha')
    exact Option.some.inj (hb'.symm.trans hb)
  | integerScalar => cases hb
  | _ => cases ha

end Given

/-! ## Layouts -/

namespace Layout

variable {lo hi : Vec3 ℝ} {res given given' : Given ℝ} {padding padding' : Option (Given ℝ)}
  {layout : Layout ℝ} {coarsened : Option (Event ℝ)}

/-- A padding is known by the scalar that it stands for. -/
theorem Margin.ofPadding_of_toScalar {margin : Margin ℝ} {a b : Given ℝ}
    (h : a.toScalar = b.toScalar) (ha : ofPadding (some a) = .ok margin) :
    ofPadding (some b) = .ok margin := by
  obtain ⟨pad, hpad, ha⟩ := bind_eq_ok.mp ha
  obtain ⟨hneg, ha⟩ := check_eq_ok.mp ha
  have hpad' : b.toScalar = .ok pad := h.symm.trans (Fault.lift_eq_ok.mp hpad)
  exact bind_eq_ok.mpr ⟨pad, Fault.lift_eq_ok.mpr hpad', check_eq_ok.mpr ⟨hneg, ha⟩⟩

/-- A bound on the number of voxels is known by its scalar, up to the errors that name it. -/
theorem coarseResolution_eq_ok {span : Vec3 ℝ} {margin : Margin ℝ} {bound coarse : ℝ}
    (h : coarseResolution span margin given bound = .ok coarse) :
    coarseResolution span margin given' bound = .ok coarse := by
  cases margin with
  | length pad => exact h
  | voxels n =>
    unfold coarseResolution at h ⊢
    dsimp only at h ⊢
    split_ifs at h ⊢
    exact h

/-- What a layout consists of: the fine one if it keeps the bound on the number of voxels, or a
    coarser one. -/
theorem ofBounds_eq_ok : ofBounds lo hi res padding (some given) = .ok (layout, coarsened) ↔
    ∃ fine margin bound, res.compare? = .ok fine ∧ Margin.ofPadding padding = .ok margin ∧
      given.compare? = .ok bound ∧
      if (voxelCounts (hi - lo) (margin.at fine) fine).any (exceeds bound) then
        ∃ coarse, coarseResolution (hi - lo) margin given bound = .ok coarse ∧
          layout = place lo margin coarse
            ((voxelCounts (hi - lo) (margin.at coarse) coarse).map (capped bound)) ∧
          coarsened = some (Event.coarsened (voxelCounts (hi - lo) (margin.at fine) fine) given res
            coarse)
      else
        layout = place lo margin fine (voxelCounts (hi - lo) (margin.at fine) fine) ∧
          coarsened = none := by
  constructor
  · intro h
    obtain ⟨fine, hfine, h⟩ := bind_eq_ok.mp h
    obtain ⟨margin, hmargin, h⟩ := bind_eq_ok.mp h
    obtain ⟨bound, hbound, h⟩ := bind_eq_ok.mp h
    refine ⟨fine, margin, bound, Fault.lift_eq_ok.mp hfine, hmargin, Fault.lift_eq_ok.mp hbound, ?_⟩
    cases hexceeds : (voxelCounts (hi - lo) (margin.at fine) fine).any (exceeds bound) with
    | true =>
      rw [hexceeds, if_neg (by decide)] at h
      obtain ⟨coarse, hcoarse, h⟩ := bind_eq_ok.mp h
      obtain ⟨rfl, rfl⟩ := Prod.mk.inj (Except.ok.inj h)
      exact ⟨coarse, hcoarse, rfl, rfl⟩
    | false =>
      rw [hexceeds, if_pos (by decide)] at h
      obtain ⟨rfl, rfl⟩ := Prod.mk.inj (Except.ok.inj h)
      exact ⟨rfl, rfl⟩
  · rintro ⟨fine, margin, bound, hfine, hmargin, hbound, h⟩
    refine bind_eq_ok.mpr ⟨fine, Fault.lift_eq_ok.mpr hfine, bind_eq_ok.mpr ⟨margin, hmargin,
      bind_eq_ok.mpr ⟨bound, Fault.lift_eq_ok.mpr hbound, ?_⟩⟩⟩
    cases hexceeds : (voxelCounts (hi - lo) (margin.at fine) fine).any (exceeds bound) with
    | true =>
      rw [hexceeds, if_pos rfl] at h
      obtain ⟨coarse, hcoarse, rfl, rfl⟩ := h
      rw [if_neg (by decide)]
      exact bind_eq_ok.mpr ⟨coarse, hcoarse, rfl⟩
    | false =>
      rw [hexceeds, if_neg (by decide)] at h
      obtain ⟨rfl, rfl⟩ := h
      rw [if_pos (by decide)]
      rfl

/-- A layout is known by its margin and the bound on the number of voxels. -/
theorem exists_ofBounds_of_same
    (h : ofBounds lo hi res padding (some given) = .ok (layout, coarsened))
    (hpadding : ∀ m, Margin.ofPadding padding = .ok m → Margin.ofPadding padding' = .ok m)
    (hgiven : given.compare? = given'.compare?) :
    ∃ coarsened', ofBounds lo hi res padding' (some given') = .ok (layout, coarsened') := by
  obtain ⟨fine, margin, bound, hfine, hmargin, hbound, h⟩ := ofBounds_eq_ok.mp h
  have hmargin' := hpadding margin hmargin
  have hbound' := hgiven.symm.trans hbound
  split_ifs at h with hexceeds
  · obtain ⟨coarse, hcoarse, hlayout, rfl⟩ := h
    refine ⟨some (.coarsened (voxelCounts (hi - lo) (margin.at fine) fine) given' res coarse),
      ofBounds_eq_ok.mpr ⟨fine, margin, bound, hfine, hmargin', hbound', ?_⟩⟩
    rw [if_pos hexceeds]
    exact ⟨coarse, coarseResolution_eq_ok hcoarse, hlayout, rfl⟩
  · obtain ⟨hlayout, rfl⟩ := h
    refine ⟨none, ofBounds_eq_ok.mpr ⟨fine, margin, bound, hfine, hmargin', hbound', ?_⟩⟩
    rw [if_neg hexceeds]
    exact ⟨hlayout, rfl⟩

end Layout

/-! ## Plans -/

namespace PlacedShape

/-- The shape at the pose without its name. -/
def unnamed {α : Type} (p : PlacedShape α) : PlacedShape α := ⟨p.shape, p.pose.unnamed⟩

theorem map_unnamed_zipWith {α : Type} (ts : List (Shape α)) (ps : List (Pose α)) :
    (List.zipWith mk ts ps).map unnamed = List.zipWith mk ts (ps.map Pose.unnamed) := by
  rw [List.map_zipWith, List.zipWith_map_right]
  rfl

end PlacedShape

namespace FieldPlan

section

variable {α : Type} [Scalar α]

/-- The tests by which the voxels in some shape are found. -/
def tests (shapes : List (PlacedShape α)) : Except Fault (List (Pose α × (Vec3 α → Bool))) :=
  shapes.mapM fun p => p.shape.inside.map fun inside => (p.pose, inside)

theorem tests_unnamed (shapes : List (PlacedShape α)) :
    tests (shapes.map PlacedShape.unnamed) =
      (tests shapes).map (List.map (Prod.map Pose.unnamed id)) := by
  unfold tests
  induction shapes with
  | nil => rfl
  | cons p shapes ih =>
    rw [List.map_cons, List.mapM_cons, List.mapM_cons, ih]
    show ((p.shape.inside.map fun inside => (p.pose.unnamed, inside)) >>= _) = _
    cases p.shape.inside with
    | error e => rfl
    | ok inside =>
      cases shapes.mapM fun p => p.shape.inside.map fun inside => (p.pose, inside) <;> rfl

theorem containsAny_unnamed (ts : List (Pose α × (Vec3 α → Bool))) :
    containsAny (ts.map (Prod.map Pose.unnamed id)) = containsAny ts := by
  funext p
  rw [containsAny, containsAny, List.any_map]
  rfl

/-- The names of poses have no part in which voxels are marked. -/
theorem occupancy_unnamed (plan : FieldPlan α) :
    { plan with shapes := plan.shapes.map PlacedShape.unnamed }.occupancy = plan.occupancy := by
  have htests := tests_unnamed plan.shapes
  have hbind : ∀ (ts : List (Pose α × (Vec3 α → Bool))) (k : _ → Except (Error α) (Grid Bool)),
      (Fault.lift (.ok ts) >>= k) = k ts := fun _ _ => rfl
  unfold tests at htests
  unfold occupancy
  simp only [htests]
  cases plan.shapes.mapM fun p => p.shape.inside.map fun inside => (p.pose, inside) with
  | error e => rfl
  | ok ts => simp only [Except.map, hbind, containsAny_unnamed]

theorem marked_eq_of_unnamed {p q : FieldPlan α}
    (hshapes : p.shapes.map PlacedShape.unnamed = q.shapes.map PlacedShape.unnamed)
    (hlayout : p.layout = q.layout) (hcut : p.cutToFraction = q.cutToFraction) :
    p.marked = q.marked := by
  have hoccupancy : p.occupancy = q.occupancy := by
    rw [← occupancy_unnamed p, ← occupancy_unnamed q, hshapes]
    unfold occupancy
    rw [hlayout, hcut]
  unfold marked
  rw [hoccupancy, hlayout]

end

variable {settings settings' : Settings ℝ} {ts : List (Shape ℝ)}
  {poses poses' : Option (List (PoseSource ℝ))} {ps ps' : List (Pose ℝ)}
  {params params' : GridParams ℝ} {plan : FieldPlan ℝ}

theorem boundsAt_unnamed {shapes shapes' : List (PlacedShape ℝ)} {boxes : List (Vec3 ℝ × Vec3 ℝ)}
    (h : shapes.map PlacedShape.unnamed = shapes'.map PlacedShape.unnamed)
    (hboxes : shapes.mapM (fun p => p.shape.boundsAt p.pose) = .ok boxes) :
    shapes'.mapM (fun p => p.shape.boundsAt p.pose) = .ok boxes := by
  -- The bounds of a shape are those at the pose without its name.
  have hunnamed : ∀ shapes : List (PlacedShape ℝ),
      shapes.mapM (fun p => p.shape.boundsAt p.pose) = .ok boxes ↔
      (shapes.map PlacedShape.unnamed).mapM (fun p => p.shape.boundsAt p.pose) = .ok boxes := by
    intro shapes
    rw [mapM_eq_ok, mapM_eq_ok, List.forall₂_map_left_iff]
    rfl
  rw [hunnamed, h] at hboxes
  exact (hunnamed shapes').mpr hboxes

/-- Shapes at poses that differ in their names only, on grids of the same parameters, have plans
    that differ in nothing that matters. -/
theorem exists_make_of_same (h : make settings (ts.map .shape) poses params = .ok plan)
    (hps : alignPoses ts.length poses = .ok ps) (hps' : alignPoses ts.length poses' = .ok ps')
    (hposes : ps.map Pose.unnamed = ps'.map Pose.unnamed)
    (hresolution : ∀ r, checkedResolution settings params.resolution = .ok r →
      checkedResolution settings' params'.resolution = .ok r)
    (hpadding : ∀ m, Layout.Margin.ofPadding params.padding = .ok m →
      Layout.Margin.ofPadding params'.padding = .ok m)
    {n : ℤ} (hdims : (params.maxDims.getD (.int Settings.maxDims)).int? = some n)
    (hdims' : (params'.maxDims.getD (.int Settings.maxDims)).int? = some n) :
    ∃ plan', make settings' (ts.map .shape) poses' params' = .ok plan' ∧
      plan.shapes.map PlacedShape.unnamed = plan'.shapes.map PlacedShape.unnamed ∧
      plan.layout = plan'.layout ∧ plan.cutToFraction = plan'.cutToFraction := by
  obtain ⟨hne, qs, r, boxes, hqs, hr, hvolume, hplaced, hboxes, hlayout, hcut⟩ := make_eq_ok.mp h
  obtain rfl : ps = qs := Except.ok.inj (hps.symm.trans hqs)
  have hgiven := (Given.compare?_of_int? hdims).trans (Given.compare?_of_int? hdims').symm
  obtain ⟨coarsened', hlayout'⟩ := Layout.exists_ofBounds_of_same hlayout hpadding hgiven
  have hshapes : plan.shapes.map PlacedShape.unnamed =
      (List.zipWith PlacedShape.mk ts ps').map PlacedShape.unnamed := by
    rw [hplaced, PlacedShape.map_unnamed_zipWith, PlacedShape.map_unnamed_zipWith, hposes]
  rw [Given.not_isFraction_of_int? hdims, Bool.and_false] at hcut
  refine ⟨⟨List.zipWith PlacedShape.mk ts ps', plan.layout, coarsened', false⟩, ?_, hshapes, rfl,
    hcut⟩
  refine make_eq_ok.mpr ⟨hne, ps', r, boxes, hps', hresolution r hr, hvolume, rfl,
    boundsAt_unnamed hshapes hboxes, hlayout', ?_⟩
  rw [Given.not_isFraction_of_int? hdims', Bool.and_false]

/-- Poses are aligned with shapes if there is one for each. -/
theorem alignPoses_eq_ok {count : ℕ} : alignPoses count poses = .ok ps ↔
    (poses.getD (List.replicate count .absent)).mapM PoseSource.toPose = .ok ps ∧
      ps.length = count := by
  unfold alignPoses
  constructor
  · intro h
    obtain ⟨hlength, h⟩ := check_eq_ok.mp h
    exact ⟨h, (mapM_eq_ok.mp h).length_eq.symm.trans (not_ne_iff.mp hlength)⟩
  · rintro ⟨h, hlength⟩
    exact check_eq_ok.mpr ⟨not_ne_iff.mpr ((mapM_eq_ok.mp h).length_eq.trans hlength), h⟩

/-- A resolution is known by the scalar that it stands for. -/
theorem checkedResolution_congr {a b : Given ℝ} (h : a.toScalar = b.toScalar) :
    checkedResolution settings (some a) = checkedResolution settings' (some b) := by
  unfold checkedResolution
  simp only [h]

end FieldPlan

/-! ## Requests -/

/-- What passes as a shape of a particular kind is that shape. -/
theorem ShapeSource.eq_of_validate {α : Type} {sources : List (ShapeSource α)} {ts : List (Shape α)}
    (h : sources.mapM validate = .ok ts) : sources = ts.map shape := by
  rw [mapM_eq_ok] at h
  induction h with
  | nil => rfl
  | @cons source t _ _ hsource _ ih =>
    cases source with
    | shape s =>
      obtain rfl := Except.ok.inj hsource
      rw [List.map_cons, ih]
    | _ => cases hsource

namespace FieldRequest

variable {r r' : FieldRequest ℝ} {reads : String → Option ℝ}

/-- A request for no meshes, whose bound on the number of voxels is an integer or missing, and
    whose texts stand for the numbers that they are read as. -/
structure IsPlain (reads : String → Option ℝ) (r : FieldRequest ℝ) : Prop where
  primitive : ∀ s, ShapeSource.shape s ∈ r.shapes → s.IsPrimitive
  maxDims : ∀ g, r.params.maxDims = some g → ∃ n, g.int? = some n
  resolution : ∀ g, r.params.resolution = some g → g.IsReadBy reads
  padding : ∀ g, r.params.padding = some g → g.IsReadBy reads

/-- The parameters of the shapes of a request. -/
def shapeNumbers (r : FieldRequest ℝ) : Set ℝ :=
  {x | ∃ s, ShapeSource.shape s ∈ r.shapes ∧ x ∈ s.numbers}

/-- The entries of the poses of a request. -/
def poseNumbers (r : FieldRequest ℝ) : Set ℝ :=
  {x | ∃ source ∈ r.poseSources, ∃ p, source.toPose = .ok p ∧ x ∈ p.numbers}

theorem IsPlain.isReadBy_resolution (hr : r.IsPlain reads) {given : Given ℝ}
    (h : r.resolution = .ok given) : given.IsReadBy reads := by
  unfold FieldRequest.resolution at h
  cases hres : r.params.resolution with
  | none =>
    rw [hres] at h
    obtain ⟨x, -, rfl⟩ := map_eq_ok.mp h
    trivial
  | some given' =>
    rw [hres] at h
    obtain rfl := Except.ok.inj h
    exact hr.resolution given' hres

theorem IsPlain.ofPadding_eq (hr : r.IsPlain reads) (hr' : r'.IsPlain reads)
    (h : FieldKey.sameOption r'.params.padding r.params.padding = true) {m : Layout.Margin ℝ}
    (hm : Layout.Margin.ofPadding r'.params.padding = .ok m) :
    Layout.Margin.ofPadding r.params.padding = .ok m := by
  rcases FieldKey.exists_of_sameOption h with ⟨hp', hp⟩ | ⟨g', g, hp', hp, hsame⟩
  · rw [hp'] at hm
    rwa [hp]
  · have hscalar := Given.toScalar_eq_of_same (hr'.padding g' hp') (hr.padding g hp) hsame
    rw [hp'] at hm
    rw [hp]
    exact Layout.Margin.ofPadding_of_toScalar hscalar hm

theorem IsPlain.exists_maxDims (hr : r.IsPlain reads) (hr' : r'.IsPlain reads)
    (h : FieldKey.sameOption r'.params.maxDims r.params.maxDims = true) :
    ∃ n, (r'.params.maxDims.getD (.int Settings.maxDims)).int? = some n ∧
      (r.params.maxDims.getD (.int Settings.maxDims)).int? = some n := by
  rcases FieldKey.exists_of_sameOption h with ⟨hd', hd⟩ | ⟨g', g, hd', hd, hsame⟩
  · rw [hd', hd]
    exact ⟨_, rfl, rfl⟩
  · obtain ⟨n', hn'⟩ := hr'.maxDims g' hd'
    obtain ⟨n, hn⟩ := hr.maxDims g hd
    obtain rfl := Given.int?_eq_of_same hn' hn hsame
    rw [hd', hd]
    exact ⟨n', hn', hn⟩

/-- Digests tell the shapes of plain requests apart, unless rounding confuses their parameters. -/
theorem IsPlain.shapes_eq (hr' : r'.IsPlain reads) {S : Set ℝ}
    (hS : S.InjOn (Scalar.roundPlaces keyPlaces)) (hrS : r.shapeNumbers ⊆ S)
    (hrS' : r'.shapeNumbers ⊆ S) {ts ts' : List (Shape ℝ)} (hts : r.shapes = ts.map .shape)
    (hts' : r'.shapes = ts'.map .shape)
    (h : FieldKey.sameAll Digest.same (ts'.map Shape.digest) (ts.map Shape.digest) = true) :
    ts' = ts := by
  have hmem : ∀ t ∈ ts, ShapeSource.shape t ∈ r.shapes := by
    intro t ht
    rw [hts]
    exact List.mem_map_of_mem ht
  have hmem' : ∀ t ∈ ts', ShapeSource.shape t ∈ r'.shapes := by
    intro t ht
    rw [hts']
    exact List.mem_map_of_mem ht
  have hid : ts'.map id = ts.map id := by
    refine FieldKey.map_eq_of_sameAll h fun t' ht' t ht hsame => ?_
    have hparams' : ∀ x ∈ t'.numbers, x ∈ S := fun x hx => hrS' ⟨t', hmem' t' ht', hx⟩
    have hparams : ∀ x ∈ t.numbers, x ∈ S := fun x hx => hrS ⟨t, hmem t ht, hx⟩
    exact Shape.eq_of_same_digest hS (hr'.primitive t' (hmem' t' ht')) hparams' hparams hsame
  rwa [List.map_id, List.map_id] at hid

/-- Rounded entries tell the poses of requests apart up to their names, unless rounding confuses
    the entries. -/
theorem unnamed_eq {T : Set ℝ} (hT : T.InjOn (Scalar.roundPlaces keyPlaces))
    (hrT : r.poseNumbers ⊆ T) (hrT' : r'.poseNumbers ⊆ T) {ps ps' : List (Pose ℝ)}
    (hps : r.poseSources.mapM PoseSource.toPose = .ok ps)
    (hps' : r'.poseSources.mapM PoseSource.toPose = .ok ps')
    (h : FieldKey.sameAll FieldKey.samePose (ps'.map FieldKey.roundedPose)
      (ps.map FieldKey.roundedPose) = true) : ps'.map Pose.unnamed = ps.map Pose.unnamed := by
  refine FieldKey.map_eq_of_sameAll h fun p' hp' p hp hsame => ?_
  obtain ⟨source', hsource', hp'⟩ := exists_of_mem_mapM hps' hp'
  obtain ⟨source, hsource, hp⟩ := exists_of_mem_mapM hps hp
  have hentries' : ∀ x ∈ p'.numbers, x ∈ T := fun x hx => hrT' ⟨source', hsource', p', hp', hx⟩
  have hentries : ∀ x ∈ p.numbers, x ∈ T := fun x hx => hrT ⟨source, hsource, p, hp, hx⟩
  exact Pose.unnamed_eq_of_same hT hentries' hentries hsame

/-- Requests with the same key have the same field, unless rounding confuses their numbers. -/
theorem sharesField (hr : r.IsPlain reads) (hr' : r'.IsPlain reads) {S T : Set ℝ}
    (hS : S.InjOn (Scalar.roundPlaces keyPlaces)) (hrS : r.shapeNumbers ⊆ S)
    (hrS' : r'.shapeNumbers ⊆ S) (hT : T.InjOn (Scalar.roundPlaces keyPlaces))
    (hrT : r.poseNumbers ⊆ T) (hrT' : r'.poseNumbers ⊆ T) : FieldCache.SharesField r' r := by
  intro key key' field hkey hkey' hsame hfield
  obtain ⟨given, ps, ts, hgiven, hps, hts, -, rfl⟩ := key_eq_ok.mp hkey
  obtain ⟨given', ps', ts', hgiven', hps', hts', -, rfl⟩ := key_eq_ok.mp hkey'
  have hshapes := ShapeSource.eq_of_validate hts
  have hshapes' := ShapeSource.eq_of_validate hts'
  simp only [FieldKey.same, Bool.and_eq_true_iff] at hsame
  obtain ⟨⟨⟨⟨hdigests, hrounded⟩, hresolution⟩, hpadding⟩, hmaxDims⟩ := hsame
  obtain rfl : ts' = ts := hr'.shapes_eq hS hrS hrS' hshapes hshapes' hdigests
  have hposes := unnamed_eq hT hrT hrT' hps hps' hrounded
  have hscalar := Given.toScalar_eq_of_same (hr'.isReadBy_resolution hgiven')
    (hr.isReadBy_resolution hgiven) hresolution
  obtain ⟨n, hn', hn⟩ := hr.exists_maxDims hr' hmaxDims
  -- The field was made by a plan, and the same plan up to names serves the other request.
  obtain ⟨plan', hplan', g, m, hmarked, hmade⟩ := DistanceField.ofShapes_eq_ok.mp hfield
  rw [hshapes'] at hplan'
  obtain ⟨-, qs, -, -, hqs, -⟩ := FieldPlan.make_eq_ok.mp hplan'
  have haligned := FieldPlan.alignPoses_eq_ok.mp hqs
  rw [poseSources, hshapes', List.length_map] at hps'
  rw [poseSources, hshapes, List.length_map] at hps
  obtain rfl : ps' = qs := Except.ok.inj (hps'.symm.trans haligned.1)
  have hlength : ps.length = ts'.length := by
    rw [← haligned.2, ← List.length_map, ← hposes, List.length_map]
  have hresolution' : ∀ x,
      FieldPlan.checkedResolution r'.settings r'.params.resolution = .ok x →
      FieldPlan.checkedResolution r.settings r.params.resolution = .ok x := by
    intro x hx
    rw [← checkedResolution_eq hgiven, ← FieldPlan.checkedResolution_congr hscalar,
      checkedResolution_eq hgiven']
    exact hx
  obtain ⟨plan, hplan, hplaced, hlayout, hcut⟩ := FieldPlan.exists_make_of_same hplan' hqs
    (FieldPlan.alignPoses_eq_ok.mpr ⟨hps, hlength⟩) hposes hresolution'
    (fun _ => hr.ofPadding_eq hr' hpadding) hn' hn
  rw [FieldPlan.marked_eq_of_unnamed hplaced hlayout hcut] at hmarked
  rw [FieldPlan.field, hlayout] at hmade
  rw [← hshapes] at hplan
  exact DistanceField.ofShapes_eq_ok.mpr ⟨plan, hplan, g, m, hmarked, hmade⟩

end FieldRequest

end Clearance
