import Clearance.Proofs.Collision.Enclosing
import Clearance.Proofs.Collision.Accounts
import Clearance.Proofs.Collision.OwnFields
import Clearance.Proofs.Collision.Verdicts

/-!
# The test of the spheres changes no answer

A query passes over bodies whose spheres are farther apart than the voxels of both fields are large.
For bodies that are built of boxes and have fields of their own shapes, no sample of such bodies is at a
distance that is not positive, so the query collects what it would have collected without the test. A
body that was handed the field of other shapes, because their key is the same, can have its field where
its sphere is not.

* `Body.IsOfBoxes`, `Check.IsPlacedBoxes`: the bodies that are meant.
* `Body.Encloses`, `Body.encloses`: the sphere of a body tells where its field is positive.
* `PlacedPair.not_collides_of_isFar`: bodies that are passed over do not collide.
* `Check.run_eq_of_boxes`: queries with and without the test.
* `Check.exists_answers_differ`: a cube with the field of a larger one.
-/

namespace Clearance

/-! ## Bodies of boxes -/

namespace Body

/-- The shapes of the body are boxes at rigid poses. -/
def IsOfBoxes (b : Body ℝ) : Prop :=
  ∀ s ∈ b.shapes, (∃ extents, s.shape = .box extents) ∧ s.pose.IsRigid

variable {b : Body ℝ}

/-! ## Spheres -/

/-- The sphere of a body encloses its samples, and wherever its field is not positive, a point of
    the sphere is within the size of a voxel. -/
structure Encloses (b : Body ℝ) (content : BodyContent ℝ) : Prop where
  pos : 0 < content.field.resolution
  samples : ∀ v ∈ content.samples, (v - b.center).norm ≤ b.radius
  field : ∀ p, (content.field.sample p).1 ≤ 0 →
    ∃ q, (q - b.center).norm ≤ b.radius ∧ (p - q).norm ≤ content.field.resolution

/-- The sphere of a body that was built of boxes and has a field of them. -/
theorem encloses (hb : b.IsBuilt) (hown : b.HasOwnField) (hs : b.IsOfBoxes) {content : BodyContent ℝ}
    (hc : b.content = some content) : b.Encloses content := by
  obtain ⟨content', spacing, hc', hsamples, hsphere⟩ := hb.content_eq
  obtain rfl : content = content' := Option.some.inj (hc.symm.trans hc')
  rw [IsOfBoxes, show b.shapes = content.shapes by rw [Body.shapes, hc]; rfl] at hs
  have hsolid : AreSolid content.shapes := by
    intro s hmem
    obtain ⟨⟨extents, e⟩, hrigid⟩ := hs s hmem
    rw [e]
    exact ⟨trivial, hrigid⟩
  obtain ⟨g, hg⟩ := (hown content hc).exists_isFieldOf hsolid
  refine ⟨hg.measures.pos, fun v hv => norm_sub_le_of_enclosing hsphere hv, fun p hp => ?_⟩
  obtain ⟨s, hmem, q, hq, hle⟩ := hg.exists_near hsolid hp
  obtain ⟨⟨extents, e⟩, hrigid⟩ := hs s hmem
  exact ⟨q, norm_sub_le_of_mem_solid hsamples hsphere hmem e hrigid hq, hle⟩

end Body

/-! ## Pairs that are passed over -/

theorem collides_iff {least : Option ℝ} : collides least = true ↔ ∃ d, least = some d ∧ d ≤ 0 := by
  cases least with
  | none => simp [collides]
  | some d => simp [collides]

/-- Bodies collide if some distance is not positive. -/
theorem collides_minimum_iff {ds : List ℝ} : collides (Scalar.minimum ds) = true ↔ ∃ d ∈ ds, d ≤ 0 := by
  simp [verdict_iff]

namespace PlacedPair

variable {a b : PlacedBody ℝ} {ca cb : BodyContent ℝ} {p : PlacedPair ℝ}

/-- Where the spheres are farther apart than the voxels of a field are large, the field is positive
    at the samples of the other body. -/
theorem pos_of_lt_gap (ha : a.body.Encloses ca) (hb : b.body.Encloses cb) (hpa : a.pose.IsRigid)
    (hpb : b.pose.IsRigid) (hgap : ca.field.resolution < gapBetween a b) {h : Hit ℝ}
    (hh : h ∈ hitsIn a b ca.field cb.samples) :
    0 < h.distance := by
  obtain ⟨v, hv, rfl⟩ := List.mem_map.mp hh
  by_contra hn
  obtain ⟨q, hq, hle⟩ := ha.field _ (not_lt.mp hn)
  have h1 : (a.center - a.pose.toMotion.applyRow q).norm ≤ a.body.radius := by
    rw [PlacedBody.center, Pose.toWorld_eq_applyRow, Pose.norm_applyRow_sub hpa, Vec3.norm_sub_comm]
    exact hq
  have h2 : (a.pose.toMotion.applyRow q - b.pose.toMotion.applyRow v).norm ≤
      ca.field.resolution := by
    rw [Vec3.norm_sub_comm, ← Pose.norm_rowToLocal_sub hpa, Pose.rowToLocal_applyRow hpa]
    exact hle
  have h3 : (b.pose.toMotion.applyRow v - b.center).norm ≤ b.body.radius := by
    rw [PlacedBody.center, Pose.toWorld_eq_applyRow, Pose.norm_applyRow_sub hpb]
    exact hb.samples v hv
  have h4 := Vec3.norm_sub_le a.center (a.pose.toMotion.applyRow q) b.center
  have h5 := Vec3.norm_sub_le (a.pose.toMotion.applyRow q) (b.pose.toMotion.applyRow v) b.center
  simp only [gapBetween] at hgap
  linarith

theorem gapBetween_comm (a b : PlacedBody ℝ) : gapBetween a b = gapBetween b a := by
  simp only [gapBetween]
  rw [Vec3.norm_sub_comm]
  ring

theorem distances_oriented (owner : PlacedBody ℝ) (hits : List (Hit ℝ)) :
    (p.oriented owner hits).map Hit.distance = hits.map Hit.distance := by
  unfold oriented
  split_ifs
  · rfl
  · rw [List.map_map]
    rfl

/-- Bodies that are passed over do not collide. -/
theorem not_collides_of_isFar (h1 : p.first.body.Encloses p.firstContent)
    (h2 : p.second.body.Encloses p.secondContent) (hp1 : p.first.pose.IsRigid)
    (hp2 : p.second.pose.IsRigid) (hfar : p.isFar = true) :
    collides (Scalar.minimum (p.hits.map Hit.distance)) = false := by
  rw [isFar, Exact.lt_iff] at hfar
  have hpos : ∀ d ∈ p.hits.map Hit.distance, 0 < d := by
    have g1 : p.firstContent.field.resolution < gapBetween p.first p.second := by
      have := h2.pos
      simp only [margin, gap] at hfar
      linarith
    have g2 : p.secondContent.field.resolution < gapBetween p.second p.first := by
      have := h1.pos
      rw [gapBetween_comm]
      simp only [margin, gap] at hfar
      linarith
    intro d hd
    rw [hits, List.map_append, distances_oriented, distances_oriented, List.mem_append] at hd
    rcases hd with hd | hd <;> obtain ⟨h, hh, rfl⟩ := List.mem_map.mp hd
    · exact pos_of_lt_gap h1 h2 hp1 hp2 g1 hh
    · exact pos_of_lt_gap h2 h1 hp2 hp1 g2 hh
  rw [← Bool.not_eq_true, collides_minimum_iff]
  rintro ⟨d, hd, hle⟩
  exact absurd (hpos d hd) (not_lt.mpr hle)

end PlacedPair

/-! ## Queries -/

namespace Check

/-- Every pair that is looked at consists of the bodies of a candidate and what they own. -/
theorem content_of_mem_placedPairs {candidates : List (Candidate ℝ)} {pairs : List (PlacedPair ℝ)}
    (h : placedPairs candidates = .ok pairs) {p : PlacedPair ℝ} (hp : p ∈ pairs) :
    p.first.body.content = some p.firstContent ∧ p.second.body.content = some p.secondContent := by
  obtain ⟨a, b, -, hof⟩ := (mem_placedPairs h).mp hp
  obtain ⟨hfirst, hsecond, rfl, rfl⟩ := PlacedPair.of_eq_ok.mp hof
  exact ⟨PlacedBody.content_eq_ok.mp hfirst, PlacedBody.content_eq_ok.mp hsecond⟩

/-- A placed body that was built of boxes and stands at a rigid pose. -/
structure IsPlacedBoxes (b : PlacedBody ℝ) : Prop where
  built : b.body.IsBuilt
  boxes : b.body.IsOfBoxes
  rigid : b.pose.IsRigid

/-- With and without the test of the spheres, the same pairs count as collisions. -/
theorem collidingPairs_eq {candidates : List (Candidate ℝ)} {pairs : List (PlacedPair ℝ)}
    (hp : placedPairs candidates = .ok pairs)
    (hb : ∀ p ∈ pairs, IsPlacedBoxes p.first ∧ IsPlacedBoxes p.second)
    (hown : ∀ p ∈ pairs, p.first.body.HasOwnField ∧ p.second.body.HasOwnField)
    (request : CollisionRequest ℝ) :
    collidingPairs { request with distance := false } pairs =
    collidingPairs { request with distance := true } pairs := by
  refine List.filter_congr fun p hmem => ?_
  obtain ⟨hc1, hc2⟩ := content_of_mem_placedPairs hp hmem
  obtain ⟨h1, h2⟩ := hb p hmem
  obtain ⟨hown1, hown2⟩ := hown p hmem
  simp only [counts, Bool.false_or, Bool.true_or, Bool.true_and]
  cases hfar : p.isFar with
  | false => rfl
  | true =>
    exact (PlacedPair.not_collides_of_isFar (Body.encloses h1.built hown1 h1.boxes hc1)
      (Body.encloses h2.built hown2 h2.boxes hc2) h1.rigid h2.rigid hfar).symm

/-- On placed bodies that were built of boxes and have fields of them, a query that passes over bodies
    with spheres far apart ends as the query that looks at all of them: neither fails, and they agree on
    the verdict, the number of contacts, and the contacts in their order. -/
theorem run_eq_of_boxes (request : CollisionRequest ℝ) (cap perPair : Int)
    (hc : request.maxContacts.int? = some cap) (hk : request.maxPerPair.int? = some perPair)
    (candidates : List (Candidate ℝ)) (pairs : List (PlacedPair ℝ))
    (hp : placedPairs candidates = .ok pairs)
    (hb : ∀ p ∈ pairs, IsPlacedBoxes p.first ∧ IsPlacedBoxes p.second)
    (hown : ∀ p ∈ pairs, p.first.body.HasOwnField ∧ p.second.body.HasOwnField) (old : CollisionResult ℝ)
    (events : Array (Event ℝ)) :
    let quick := run { request with distance := false } candidates old events
    let full := run { request with distance := true } candidates old events
    quick.failure = none ∧ full.failure = none ∧ quick.result.collision = full.result.collision ∧
      quick.result.contactCount = full.result.contactCount ∧
      quick.result.contacts = full.result.contacts := by
  intro quick full
  have gathers : ∀ d : Bool, Gathers { request with distance := d } cap (max 1 perPair)
      (collidingPairs { request with distance := d } pairs) old
      (run { request with distance := d } candidates old events) := by
    intro d
    have hc' : ({ request with distance := d } : CollisionRequest ℝ).maxContacts.int? = some cap := hc
    have hk' : ({ request with distance := d } : CollisionRequest ℝ).maxPerPair.int? =
        some perPair := hk
    exact run_gathers hc' hk' candidates hp old events
  have hq := gathers false
  have hf := gathers true
  rw [collidingPairs_eq hp hb hown] at hq
  refine ⟨hq.failure, hf.failure, ?_, ?_, ?_⟩
  · rw [hq.collision, hf.collision]
  · rw [hq.contactCount, hf.contactCount]
    rfl
  · rw [hq.contacts, hf.contacts]
    rfl

/-! ## Cubes on one cache -/

section Cubes

open DistanceField (cubeOf cubeGridAt)

variable {edge r t : ℝ}

/-- An obstacle that is a cube, as it is to be built with voxels of a size, on the first cache. -/
noncomputable def cubeSource (edge : ℝ) : BodySource ℝ :=
  ⟨"cube", .ok (.obstacle .origin), [.shape (cubeOf edge)], none⟩

noncomputable def sharedParams (r : ℝ) : BodyParams ℝ := ⟨cubeGridAt r, none, some 0⟩

/-- What the cache is asked for then, and under which key. -/
noncomputable def cubeRequest (edge r : ℝ) : FieldRequest ℝ :=
  ⟨.standard, [.shape (cubeOf edge)], some [.pose .origin], cubeGridAt r⟩

noncomputable def keyOf (edge r : ℝ) : FieldKey ℝ :=
  ⟨[(cubeOf edge).digest], [FieldKey.roundedPose .origin], .real r, some (.real 0), none⟩

theorem key_cubeRequest (edge r : ℝ) : (cubeRequest edge r).key = .ok (keyOf edge r) := by
  refine bind_eq_ok.mpr ⟨.real r, rfl, bind_eq_ok.mpr ⟨[.origin], ?_, rfl⟩⟩
  exact mapM_eq_ok.mpr (.cons Pose.toPose_origin .nil)

/-- A body that is a cube, whatever its field: its samples and its sphere are those of the cube. -/
structure IsCubeBody (b : Body ℝ) (content : BodyContent ℝ) (edge : ℝ) : Prop where
  built : b.IsBuilt
  owned : b.content = some content
  shapes : content.shapes = [⟨cubeOf edge, .origin⟩]
  corner : ⟨edge / 2, edge / 2, edge / 2⟩ ∈ content.samples
  center : b.center = ⟨0, 0, 0⟩
  radius : b.radius = √3 * (edge / 2)

/-- The cube can be built with the field that the cache hands out. -/
theorem exists_build_shared {inv : Inventory ℝ} {field : DistanceField ℝ} {key : FieldKey ℝ} (hedge : 0 < edge)
    (hsettings : inv.settings = .standard) (hpos : 0 < field.resolution)
    (hask : ((inv.cache 0).ask (cubeRequest edge r)).outcome = .ok (field, key)) :
    ∃ b content inv', IsCubeBody b content edge ∧ content.field = field ∧ inv'.settings = .standard ∧
      inv'.caches = inv.caches.setIfInBounds 0 ((inv.cache 0).ask (cubeRequest edge r)).cache ∧
      inv'.bodies = inv.bodies.push b ∧
      (Inventory.build (cubeSource edge) (sharedParams r)).run inv = (.ok inv.bodies.size, inv') := by
  have hshapes : Inventory.placedShapes (cubeSource edge) = .ok [⟨cubeOf edge, .origin⟩] := rfl
  have hrole : (cubeSource edge).role = .ok (.obstacle .origin) := rfl
  have hcache : (sharedParams r).cache = some 0 := rfl
  have hobtain := Inventory.obtainField_kept inv [⟨cubeOf edge, .origin⟩] hcache
  have hacquire : (inv.cache 0).acquire inv.settings (Inventory.sources [⟨cubeOf edge, .origin⟩])
      (Inventory.poseSources [⟨cubeOf edge, .origin⟩]) (sharedParams r).grid =
        (inv.cache 0).ask (cubeRequest edge r) := by
    rw [hsettings]
    rfl
  dsimp only at hobtain
  rw [hacquire, hask] at hobtain
  obtain ⟨b, spacing, samples, -, -, hcontent, hsample, hsamples, hsphere, hrun⟩ :=
    Inventory.exists_build_boxes hrole hshapes (List.cons_ne_nil _ _) (DistanceField.isBox_cubeOf edge) rfl hobtain
  have hspacing : 0 < spacing := Except.ok.inj hsample ▸ hpos
  have hpoints := Body.surfacePoints_of_samplesOf hsamples
  obtain ⟨hcenter, hradius⟩ := Body.enclosing_box ⟨hedge, hedge, hedge⟩ hspacing hpoints hsphere
  have hbuilt : b.IsBuilt := ⟨_, _, inv, _, _, hrun, Array.getElem?_push_size⟩
  have hhalf : Box.half ⟨edge, edge, edge⟩ = ⟨edge / 2, edge / 2, edge / 2⟩ := Box.half_eq _
  have hlast : ∀ {x y : ℝ}, y ∈ [x, y] := List.mem_cons_of_mem _ (List.mem_singleton_self _)
  refine ⟨b, _, _, ⟨hbuilt, hcontent, rfl, ?_, hcenter, ?_⟩, rfl, ?_, ?_, ?_, hrun⟩
  · exact hhalf ▸ Body.corner_mem_samplesOf hsamples (mem_corners hlast hlast hlast)
  · rw [hradius, hhalf, Vec3.norm_diagonal, abs_of_pos (half_pos hedge)]
  · exact hsettings
  · rfl
  · rfl

/-- The field of a cube of eight voxels along each axis. -/
theorem exists_cubeField (hr : 0 < r) : ∃ f, (cubeRequest (8 * r) r).field = .ok f ∧ f.resolution = r := by
  have hcount : Layout.voxelCount r (8 * r) = 8 + 2 :=
    Layout.voxelCount_of_whole (by rw [mul_div_cancel_right₀ _ hr.ne']; norm_num)
  have hposes : FieldPlan.alignPoses 1 (some [.pose Pose.origin]) = (.ok [Pose.origin] : Except (Error ℝ) _) :=
    mapM_eq_ok.mpr (.cons Pose.toPose_origin .nil)
  obtain ⟨f, g, k, hf, -, hfield⟩ :=
    DistanceField.exists_cubeAt hcount (by linarith) hposes hr (by linarith) (by decide)
  exact ⟨f, hf, (FieldPlan.ofData_eq_ok hfield).2.1⟩

/-- A cube of eight voxels along each axis, and then a second cube. If its key is the same, it has the
    field of the first. -/
structure ShareField (a b : Body ℝ) (inside outside : BodyContent ℝ) (edge r : ℝ) (inv : Inventory ℝ) : Prop where
  positive : 0 < r
  first : IsCubeBody a inside (8 * r)
  second : IsCubeBody b outside edge
  field : Body.HasFieldOf [⟨cubeOf (8 * r), .origin⟩] inside.field
  same : outside.field = inside.field
  resolution : inside.field.resolution = r
  settings : inv.settings = .standard
  cache : inv.cache 0 = FieldCache.empty.run [.acquire (cubeRequest (8 * r) r)]
  bodies : inv.bodies = #[a]
  run : (Inventory.build (cubeSource (8 * r)) (sharedParams r)).run (Inventory.start .standard 1) = (.ok 0, inv)

theorem exists_shareField (hr : 0 < r) (hedge : 0 < edge) (hsame : (keyOf (8 * r) r).same (keyOf edge r) = true) :
    ∃ a b inside outside inv inv', ShareField a b inside outside edge r inv ∧ inv'.bodies = #[a, b] ∧
      (Inventory.build (cubeSource edge) (sharedParams r)).run inv = (.ok 1, inv') := by
  obtain ⟨f, hf, hresolution⟩ := exists_cubeField hr
  have hcopy : f.copy = f := DistanceField.copy_of_ofShapes hf
  let start : Inventory ℝ := Inventory.start .standard 1
  have hstart : start.cache 0 = FieldCache.empty := Inventory.cache_start _ _ _
  have hbuilt := (FieldRequest.built_eq (key_cubeRequest (8 * r) r)).trans hf
  have hask : ((start.cache 0).ask (cubeRequest (8 * r) r)).outcome = .ok (f, keyOf (8 * r) r) := by
    have hmissing : (start.cache 0).find? (keyOf (8 * r) r) = none := by rw [hstart]; rfl
    have hasked := FieldCache.acquire_missing (key_cubeRequest (8 * r) r) hmissing hbuilt
    rwa [hcopy] at hasked
  obtain ⟨a, inside, inv, ha, hinside, hsettings, hcaches, hbodies, hrun⟩ :=
    exists_build_shared (by linarith) rfl (hresolution ▸ hr) hask
  have hcache : inv.cache 0 = FieldCache.empty.run [.acquire (cubeRequest (8 * r) r)] := by
    rw [Inventory.cache, hcaches, hstart]
    rfl
  have hfind : (inv.cache 0).find? (keyOf edge r) = some ⟨keyOf (8 * r) r, f, 1⟩ := by
    rw [hcache]
    exact (FieldCache.acquire_enters (key_cubeRequest (8 * r) r) rfl hbuilt).find?_eq _ |>.trans
      (List.find?_cons_of_pos hsame)
  have hkept : ((inv.cache 0).ask (cubeRequest edge r)).outcome = .ok (f, keyOf edge r) := by
    have hkept := FieldCache.acquire_kept (key_cubeRequest edge r) hfind
    rwa [hcopy] at hkept
  obtain ⟨b, outside, inv', hb, houtside, -, -, hbodies', hrun'⟩ :=
    exists_build_shared hedge hsettings (hresolution ▸ hr) hkept
  rw [hbodies] at hrun' hbodies'
  refine ⟨a, b, inside, outside, inv, inv', ⟨hr, ha, hb, ⟨_, _, f, hf, .inl hinside⟩, houtside.trans hinside.symm,
    hinside ▸ hresolution, hsettings, hcache, hbodies, hrun⟩, hbodies', hrun'⟩

/-- On the diagonal of a cube, all faces on one side are equally far away. -/
theorem signedDistances_cubeOf {x : ℝ} (hx : |x| ≤ edge / 2) :
    (cubeOf edge).signedDistances [⟨x, x, x⟩] = .ok [|x| - edge / 2] := by
  have hle : |x| - edge / 2 ≤ 0 := sub_nonpos.mpr hx
  have hdistance : Box.signedDistance ⟨edge, edge, edge⟩ ⟨x, x, x⟩ = |x| - edge / 2 := by
    rw [Box.signedDistance_eq_beyond, Vec3.beyond_of_nonpos hle hle hle]
    simp [Box.excess]
  exact congrArg (fun d => Except.ok [d]) hdistance

/-- A body at so far along the diagonal. -/
noncomputable def placedAt (name : String) (b : Body ℝ) (t : ℝ) : PlacedBody ℝ :=
  ⟨name, none, "world_object", b, ⟨⟨t, t, t⟩, Mat3.identity, ""⟩, []⟩

/-- The first cube at the origin, and the second one along the diagonal. -/
noncomputable def apart (a b : Body ℝ) (inside outside : BodyContent ℝ) (t : ℝ) : PlacedPair ℝ :=
  ⟨placedAt "base" a 0, placedAt "tool" b t, inside, outside⟩

theorem IsCubeBody.isPlacedBoxes {b : Body ℝ} {content : BodyContent ℝ} (h : IsCubeBody b content edge)
    (name : String) (t : ℝ) : IsPlacedBoxes (placedAt name b t) := by
  have hshapes : (placedAt name b t).body.shapes = [⟨cubeOf edge, .origin⟩] := by
    rw [Body.shapes, show (placedAt name b t).body.content = some content from h.owned]
    exact h.shapes
  refine ⟨h.built, fun s hs => ?_, Mat3.isOrthogonal_identity⟩
  obtain rfl := List.mem_singleton.mp (hshapes ▸ hs)
  exact ⟨⟨_, rfl⟩, Pose.isRigid_origin⟩

variable {a b : Body ℝ} {inside outside : BodyContent ℝ} {inv : Inventory ℝ}

namespace ShareField

variable (h : ShareField a b inside outside edge r inv)

include h

theorem isPlacedBoxes (t : ℝ) :
    IsPlacedBoxes (apart a b inside outside t).first ∧ IsPlacedBoxes (apart a b inside outside t).second :=
  ⟨h.first.isPlacedBoxes "base" 0, h.second.isPlacedBoxes "tool" t⟩

theorem of_apart (t : ℝ) : PlacedPair.of (placedAt "base" a 0) (placedAt "tool" b t) =
    .ok (apart a b inside outside t) :=
  PlacedPair.of_eq_ok.mpr
    ⟨PlacedBody.content_eq_ok.mpr h.first.owned, PlacedBody.content_eq_ok.mpr h.second.owned, rfl, rfl⟩

/-- The spheres are as far apart as the centres, less the halves of the diagonals. -/
theorem isFar_apart (ht : 0 ≤ t) (hfar : 2 * r < √3 * (t - 4 * r - edge / 2)) :
    (apart a b inside outside t).isFar = true := by
  have hcenter : ∀ name (p : Body ℝ) (x : ℝ), p.center = ⟨0, 0, 0⟩ → (placedAt name p x).center = ⟨x, x, x⟩ := by
    intro name p x hp
    rw [PlacedBody.center, show (placedAt name p x).body.center = _ from hp, Pose.toWorld_eq_applyRow]
    simp [placedAt, Motion.applyRow, Pose.toMotion, Mat3.vecMul]
  have hdistance : ((⟨0, 0, 0⟩ : Vec3 ℝ) - ⟨t, t, t⟩).norm = √3 * t := by
    rw [Vec3.norm_sub_comm]
    simp only [Vec3.sub_def, sub_zero]
    rw [Vec3.norm_diagonal, abs_of_nonneg ht]
  have hgap : (apart a b inside outside t).gap = √3 * t - √3 * (8 * r / 2) - √3 * (edge / 2) := by
    rw [PlacedPair.gap, PlacedPair.gapBetween, apart, hcenter _ _ _ h.first.center,
      hcenter _ _ _ h.second.center, hdistance]
    simp only [placedAt, h.first.radius, h.second.radius]
  have hmargin : (apart a b inside outside t).margin = r + r := by
    rw [PlacedPair.margin, apart, h.same, h.resolution]
  rw [PlacedPair.isFar, Exact.lt_iff, hgap, hmargin]
  linarith

/-- The corner of the first cube is deep inside the field of the second, which is that of a cube like
    the first. -/
theorem collides_apart (hdeep : √3 * r < 4 * r - |4 * r - t|) :
    collides (Scalar.minimum ((apart a b inside outside t).hits.map Hit.distance)) = true := by
  let place : Vec3 ℝ := (placedAt "base" a 0).pose.toMotion.applyRow ⟨8 * r / 2, 8 * r / 2, 8 * r / 2⟩
  let hit := Hit.lookUp (placedAt "tool" b t).pose outside.field place
  have hmem : hit ∈ PlacedPair.hitsIn (placedAt "tool" b t) (placedAt "base" a 0) outside.field inside.samples :=
    List.mem_map_of_mem h.first.corner
  have hlocal : (placedAt "tool" b t).pose.rowToLocal place = ⟨4 * r - t, 4 * r - t, 4 * r - t⟩ := by
    simp only [placedAt, place, Pose.rowToLocal, Motion.applyRow, Pose.toMotion, Mat3.vecMul, Mat3.identity,
      Mat3.transpose, Vec3.add_def, Vec3.sub_def, Exact.one_eq, Exact.zero_eq, Vec3.mk.injEq]
    refine ⟨?_, ?_, ?_⟩ <;> ring
  have hneg : hit.distance < 0 := by
    have hsolid : AreSolid [⟨cubeOf (8 * r), .origin⟩] := by
      intro s hs
      obtain rfl := List.mem_singleton.mp hs
      exact ⟨trivial, Pose.isRigid_origin⟩
    obtain ⟨g, hg⟩ := h.field.exists_isFieldOf hsolid
    show (outside.field.sample ((placedAt "tool" b t).pose.rowToLocal place)).1 < 0
    rw [hlocal, h.same]
    refine hg.neg_of_deep hsolid (List.mem_singleton_self _) (d := |4 * r - t| - 8 * r / 2) ?_ ?_
    · have hpos : 0 ≤ √3 * r := mul_nonneg (Real.sqrt_nonneg 3) h.positive.le
      rw [Pose.rowToLocal_origin]
      exact signedDistances_cubeOf (by linarith)
    · rw [h.resolution]
      linarith
  have hhits : hit.distance ∈ (apart a b inside outside t).hits.map Hit.distance := by
    rw [PlacedPair.hits, List.map_append, PlacedPair.distances_oriented, PlacedPair.distances_oriented]
    exact List.mem_append_right _ (List.mem_map_of_mem hmem)
  exact collides_minimum_iff.mpr ⟨_, hhits, hneg.le⟩

omit h in
/-- Cubes of one edge have fields of their own shapes: the cache was asked for nothing else. -/
theorem hasOwnField {inv' : Inventory ℝ} (h : ShareField a b inside outside (8 * r) r inv)
    (hbodies : inv'.bodies = #[a, b])
    (hrun : (Inventory.build (cubeSource (8 * r)) (sharedParams r)).run inv = (.ok 1, inv')) :
    a.HasOwnField ∧ b.HasOwnField := by
  have hfirst : inv.body? 0 = some a := by rw [Inventory.body?, h.bodies]; rfl
  have hsecond : inv'.body? 1 = some b := by rw [Inventory.body?, hbodies]; rfl
  constructor
  · refine Body.hasOwnField_of_run h.run hfirst fun c _ => ?_
    exact ⟨[], Inventory.cache_start .standard 1 c, fun r' hr' => absurd hr' List.not_mem_nil⟩
  · refine Body.hasOwnField_of_run hrun hsecond fun c hc => ?_
    obtain rfl : 0 = c := Option.some.inj hc
    have hshapes : b.shapes = [⟨cubeOf (8 * r), .origin⟩] := by
      rw [Body.shapes, h.second.owned]
      exact h.second.shapes
    have hrequest : FieldRequest.mk inv.settings (Inventory.sources b.shapes) (Inventory.poseSources b.shapes)
        (sharedParams r).grid = cubeRequest (8 * r) r := by
      rw [h.settings, hshapes]
      rfl
    refine ⟨_, h.cache, fun r' hr' => ?_⟩
    rw [hrequest, List.mem_singleton.mp hr']
    exact fun _ _ _ _ _ _ hfield => hfield

end ShareField

/-- The keys of cubes are the same if their edges are, after rounding. -/
theorem same_keyOf {edge' : ℝ} (h : Scalar.roundScaled keyPlaces edge = Scalar.roundScaled keyPlaces edge') :
    (keyOf edge r).same (keyOf edge' r) = true := by
  simp [keyOf, FieldKey.same, FieldKey.sameAll, FieldKey.sameOption, FieldKey.samePose, FieldKey.sameVec, cubeOf,
    Shape.digest, Digest.same, Given.same, Exact.eq_iff, Vec3.map, h]

theorem sqrt_three_bounds : 17 / 10 < √(3 : ℝ) ∧ √(3 : ℝ) < 2 :=
  ⟨Real.lt_sqrt_of_sq_lt (by norm_num), (Real.sqrt_lt' two_pos).mpr (by norm_num)⟩

/-- Two cubes on one cache are compared in two places: in the one they overlap, in the other they are
    passed over. -/
theorem run_eq_of_boxes_cubes : ∃ (candidates : List (Candidate ℝ)) (near far : PlacedPair ℝ),
    placedPairs candidates = .ok [near, far] ∧
    (∀ p ∈ [near, far], IsPlacedBoxes p.first ∧ IsPlacedBoxes p.second) ∧
    (∀ p ∈ [near, far], p.first.body.HasOwnField ∧ p.second.body.HasOwnField) ∧
    far.isFar = true ∧
    let request : CollisionRequest ℝ := { CollisionRequest.standard with contacts := true }
    let quick := run { request with distance := false } candidates CollisionResult.empty #[]
    let full := run { request with distance := true } candidates CollisionResult.empty #[]
    quick.failure = none ∧ full.failure = none ∧ quick.result.collision = full.result.collision ∧
      quick.result.contactCount = full.result.contactCount ∧ quick.result.contacts = full.result.contacts ∧
      quick.result.collision = true := by
  obtain ⟨a, b, inside, outside, inv, inv', h, hbodies, hrun⟩ :=
    exists_shareField one_pos (show (0 : ℝ) < 8 * 1 by norm_num) (same_keyOf rfl)
  let near := apart a b inside outside 4
  let far := apart a b inside outside 100
  let request : CollisionRequest ℝ := { CollisionRequest.standard with contacts := true }
  let candidates := [Candidate.pair near.first near.second, Candidate.pair far.first far.second]
  have hroot := sqrt_three_bounds
  have hfar : far.isFar = true := h.isFar_apart (by norm_num) (by linarith)
  have hnear : collides (Scalar.minimum (near.hits.map Hit.distance)) = true := by
    refine h.collides_apart ?_
    norm_num
    linarith
  have hp : placedPairs candidates = .ok [near, far] :=
    bind_eq_ok.mpr ⟨near, h.of_apart 4, bind_eq_ok.mpr ⟨[far], bind_eq_ok.mpr ⟨far, h.of_apart 100, rfl⟩, rfl⟩⟩
  have hall : ∀ p ∈ [near, far], IsPlacedBoxes p.first ∧ IsPlacedBoxes p.second := by
    intro p hp
    rcases List.mem_pair.mp hp with rfl | rfl
    · exact h.isPlacedBoxes 4
    · exact h.isPlacedBoxes 100
  have hown : ∀ p ∈ [near, far], p.first.body.HasOwnField ∧ p.second.body.HasOwnField := by
    intro p hp
    rcases List.mem_pair.mp hp with rfl | rfl
    · exact h.hasOwnField hbodies hrun
    · exact h.hasOwnField hbodies hrun
  obtain ⟨hquick, hfull, hverdict, hcount, hcontacts⟩ :=
    run_eq_of_boxes request 1 1 rfl rfl candidates [near, far] hp hall hown CollisionResult.empty #[]
  refine ⟨candidates, near, far, hp, hall, hown, hfar, hquick, hfull, hverdict, hcount, hcontacts, ?_⟩
  have hcap : ({ request with distance := true } : CollisionRequest ℝ).maxContacts.int? = some 1 := rfl
  rw [hverdict, collision_run hcap rfl hp]
  exact List.any_eq_true.mpr ⟨near, List.mem_cons_self, hnear⟩

/-- So far apart are the voxels of two cubes whose edges are too short for keys to tell apart. -/
noncomputable def grain : ℝ := 5 / 10 ^ 14

/-- A cube of eight grains and one of a single grain, built one after the other on one cache, have one
    key. The second cube has the field of the first, so that it collides where its sphere is too far away
    to be looked at. -/
theorem exists_answers_differ : ∃ inv inv' a b,
    (Inventory.build (cubeSource (8 * grain)) (sharedParams grain)).run (Inventory.start .standard 1) = (.ok 0, inv) ∧
    (Inventory.build (cubeSource grain) (sharedParams grain)).run inv = (.ok 1, inv') ∧ inv'.bodies = #[a, b] ∧
    IsPlacedBoxes (placedAt "base" a 0) ∧ IsPlacedBoxes (placedAt "tool" b (6 * grain)) ∧
    let candidates := [Candidate.pair (placedAt "base" a 0) (placedAt "tool" b (6 * grain))]
    let request : CollisionRequest ℝ := CollisionRequest.standard
    request.validate = .ok () ∧
    (run { request with distance := false } candidates .empty #[]).result.collision = false ∧
    (run { request with distance := true } candidates .empty #[]).result.collision = true := by
  have hgrain : 0 < grain := by
    rw [grain]
    positivity
  have hrounded : ∀ x : ℝ, 0 ≤ x → x ≤ 8 * grain → Scalar.roundScaled keyPlaces x = 0 := by
    intro x hx hle
    refine Exact.roundScaled_eq_zero hx ?_
    rw [grain] at hle
    norm_num [keyPlaces]
    linarith
  have hkeys : Scalar.roundScaled keyPlaces (8 * grain) = Scalar.roundScaled keyPlaces grain := by
    rw [hrounded _ (by linarith) le_rfl, hrounded _ hgrain.le (by linarith)]
  obtain ⟨a, b, inside, outside, inv, inv', h, hbodies, hrun⟩ := exists_shareField hgrain hgrain (same_keyOf hkeys)
  let pair := apart a b inside outside (6 * grain)
  have hroot := sqrt_three_bounds
  have hfar : pair.isFar = true := h.isFar_apart (by linarith) (by nlinarith)
  have hcollides : collides (Scalar.minimum (pair.hits.map Hit.distance)) = true := by
    refine h.collides_apart ?_
    rw [show 4 * grain - 6 * grain = -(2 * grain) by ring, abs_neg, abs_of_pos (by linarith)]
    nlinarith
  have hpairs : placedPairs [.pair (placedAt "base" a 0) (placedAt "tool" b (6 * grain))] = .ok [pair] :=
    bind_eq_ok.mpr ⟨pair, h.of_apart _, rfl⟩
  have hanswer : ∀ d : Bool, (run { CollisionRequest.standard with distance := d }
      [.pair (placedAt "base" a 0) (placedAt "tool" b (6 * grain))] .empty #[]).result.collision = d := by
    intro d
    have hcap : ({ CollisionRequest.standard with distance := d } : CollisionRequest ℝ).maxContacts.int? =
        some 1 := rfl
    have hcounts : counts { CollisionRequest.standard with distance := d } pair = d := by
      rw [counts, hfar, hcollides]
      cases d <;> rfl
    rw [collision_run hcap rfl hpairs, List.any_cons, hcounts, List.any_nil, Bool.or_false]
  obtain ⟨hbase, htool⟩ := h.isPlacedBoxes (6 * grain)
  exact ⟨inv, inv', a, b, h.run, hrun, hbodies, hbase, htool, rfl, hanswer false, hanswer true⟩

end Cubes

end Check

end Clearance
