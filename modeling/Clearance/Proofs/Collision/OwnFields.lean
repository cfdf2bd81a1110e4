import Clearance.Proofs.Collision.Enclosing
import Clearance.Proofs.Field.Directions
import Clearance.Proofs.Field.Requests

/-!
# The fields of bodies

A body is built with a field of its own or with one from a cache. Without a cache the field is built of
the shapes of the body. A cache hands out what it keeps under the key of the shapes, and keys tell
numbers apart up to rounding only: the field can be that of other shapes, at other places. It is that of
the body's shapes as long as everything that the cache was asked for under such a key has that field.

* `Body.IsBuilt`: the bodies that can be built, and `Body.IsBuilt.content_eq`: what they own.
* `Body.HasOwnField`: the field of a body is one of its own shapes.
* `Body.hasOwnField_of_run`: bodies with such a field.
* `Body.HasFieldOf.exists_isFieldOf`: such a field measures the voxels that the shapes cover.
* `Body.IsVoxel`: a cube whose field consists of one marked voxel and those around it.
-/

namespace Clearance.Body

open Inventory (sources poseSources)

/-- The body was built and entered in some inventory. -/
def IsBuilt (b : Body ℝ) : Prop :=
  ∃ source params inv id inv', (Inventory.build source params).run inv = (.ok id, inv') ∧
    inv'.body? id = some b

/-- A field that is built of these shapes, up to the lengths of its directions. -/
def HasFieldOf (shapes : List (PlacedShape ℝ)) (field : DistanceField ℝ) : Prop :=
  ∃ settings params f,
    (DistanceField.ofShapes settings (sources shapes) (poseSources shapes) params).1 = .ok f ∧
      (field = f ∨ field = f.copy)

/-- The field that a body owns is one that is built of its own shapes. -/
def HasOwnField (b : Body ℝ) : Prop := ∀ content, b.content = some content → HasFieldOf content.shapes content.field

variable {b : Body ℝ}

/-! ## What was built -/

section Run

variable {source : BodySource ℝ} {params : BodyParams ℝ} {inv inv' : Inventory ℝ} {id : Nat}

/-- A body that was built, with what it owns and the run in which its field was obtained. -/
theorem content_of_run (hrun : (Inventory.build source params).run inv = (.ok id, inv'))
    (hb : inv'.body? id = some b) :
    ∃ content spacing inv₁, b.content = some content ∧ samplesOf content.shapes spacing = .ok content.samples ∧
      enclosing content.samples = .ok (b.center, b.radius) ∧
      (Inventory.obtainField content.shapes params).run inv = (.ok (content.field, content.hold), inv₁) := by
  have hbuilding := Inventory.building source params inv
  rw [hrun] at hbuilding
  cases hbuilding with
  | @entered shapes field hold inv₁ b' hshapes hspacing hfield hfinish =>
    obtain ⟨spacing, samples, role, -, hsamples, hsphere, -, hcontent⟩ := Inventory.finish_eq_ok hfinish
    obtain rfl : b' = b := by
      rw [Inventory.body?, Array.getElem?_push_size] at hb
      exact Option.some.inj hb
    exact ⟨_, spacing, inv₁, hcontent, hsamples, hsphere, hfield⟩

/-- A body has a field of its own shapes if it was built without a cache, or with one that came about by
    calls which asked for no other field under the key of its shapes. -/
theorem hasOwnField_of_run (hrun : (Inventory.build source params).run inv = (.ok id, inv'))
    (hb : inv'.body? id = some b)
    (hcache : ∀ c, params.cache = some c → ∃ calls, inv.cache c = FieldCache.empty.run calls ∧
      ∀ r ∈ FieldCache.asked calls,
        FieldCache.SharesField r ⟨inv.settings, sources b.shapes, poseSources b.shapes, params.grid⟩) :
    b.HasOwnField := by
  obtain ⟨content, spacing, inv₁, hcontent, -, -, hobtain⟩ := content_of_run hrun hb
  intro content' hcontent'
  obtain rfl : content = content' := Option.some.inj (hcontent.symm.trans hcontent')
  have hshapes : b.shapes = content.shapes := by rw [Body.shapes, hcontent]; rfl
  cases hc : params.cache with
  | none =>
    obtain ⟨hf, -⟩ := Inventory.obtainField_alone_ok hc hobtain
    exact ⟨inv.settings, params.grid, content.field, hf, .inl rfl⟩
  | some c =>
    obtain ⟨key, hf, -⟩ := Inventory.obtainField_kept_ok hc hobtain
    obtain ⟨calls, hcalls, hshares⟩ := hcache c hc
    rw [hshapes] at hshares
    have hands : (inv.cache c).HandsOut
        ⟨inv.settings, sources content.shapes, poseSources content.shapes, params.grid⟩ :=
      hcalls ▸ FieldCache.handsOut_run FieldCache.wellKept_empty FieldCache.handsOutBuilt_empty hshares
    obtain ⟨_, f, -, hfield, hcopy⟩ := (FieldCache.exists_ask_iff hands).mp ⟨key, hf⟩
    exact ⟨inv.settings, params.grid, f, hfield, .inr hcopy⟩

end Run

/-- What a body that was built owns. -/
theorem IsBuilt.content_eq (h : b.IsBuilt) :
    ∃ content spacing, b.content = some content ∧ samplesOf content.shapes spacing = .ok content.samples ∧
      enclosing content.samples = .ok (b.center, b.radius) := by
  obtain ⟨source, params, inv, id, inv', hrun, hb⟩ := h
  obtain ⟨content, spacing, -, hcontent, hsamples, hsphere, -⟩ := content_of_run hrun hb
  exact ⟨content, spacing, hcontent, hsamples, hsphere⟩

/-! ## What a field measures -/

/-- A pose that is handed on as it is stays as it is. -/
theorem alignPoses_poseSources {shapes : List (PlacedShape ℝ)} {n : ℕ} {ps : List (Pose ℝ)}
    (h : FieldPlan.alignPoses n (poseSources shapes) = .ok ps) :
    ps = shapes.map PlacedShape.pose := by
  unfold FieldPlan.alignPoses at h
  have hall := mapM_eq_ok.mp (check_eq_ok.mp h).2
  rw [poseSources, Option.getD_some, List.forall₂_map_left_iff] at hall
  have copy : ∀ {p q : Pose ℝ}, (PoseSource.pose p).toPose = .ok q → q = p := by
    intro p q hq
    obtain ⟨r, hr, hq⟩ := bind_eq_ok.mp hq
    obtain ⟨v, hv, hq⟩ := bind_eq_ok.mp hq
    unfold Pose.checkRotation at hr
    unfold Pose.checkPosition at hv
    split_ifs at hr hv
    rw [← Except.ok.inj hq, ← Except.ok.inj hr, ← Except.ok.inj hv]
  clear h
  induction hall with
  | nil => rfl
  | cons hp _ ih => rw [List.map_cons, copy hp, ih]

/-- The field of a body of boxes, spheres and cylinders measures the voxels that they cover. -/
theorem HasFieldOf.exists_isFieldOf {shapes : List (PlacedShape ℝ)} {field : DistanceField ℝ}
    (h : HasFieldOf shapes field) (hs : AreSolid shapes) : ∃ g, field.IsFieldOf shapes g := by
  obtain ⟨settings, params, f, hf, hfield⟩ := h
  have hsame : field = f := hfield.elim id (·.trans (DistanceField.copy_of_ofShapes hf))
  have hsources : sources shapes = (shapes.map PlacedShape.shape).map .shape := by
    rw [sources, List.map_map]
    rfl
  rw [hsources] at hf
  obtain ⟨ps, hps⟩ := DistanceField.exists_alignPoses hf
  have hplaced : List.zipWith PlacedShape.mk (shapes.map PlacedShape.shape) ps = shapes := by
    rw [alignPoses_poseSources hps, List.zipWith_map, List.zipWith_self]
    exact List.map_id _
  obtain ⟨g, hg⟩ := DistanceField.exists_isFieldOf hf hps (hplaced.symm ▸ hs)
  rw [hplaced] at hg
  exact ⟨g, hsame ▸ hg⟩

/-! ## A cube of one voxel -/

section Voxel

open DistanceField (cube cubeGridAt IsLone InBox)

/-- The body of a cube whose field consists of one marked voxel and those around it. -/
structure IsVoxel (b : Body ℝ) (content : BodyContent ℝ) : Prop where
  built : b.IsBuilt
  ownField : b.HasOwnField
  shapes : b.shapes = [⟨cube, .origin⟩]
  owned : b.content = some content
  samples : ∃ spacing, samplesOf [⟨cube, .origin⟩] spacing = .ok content.samples
  resolution : content.field.resolution = 8
  lone : ∃ g, IsLone content.field g ⟨1, 1, 1⟩
  center : content.field.centerOf ⟨1, 1, 1⟩ = ⟨0, 0, 0⟩

/-- Such a body can be built. -/
theorem exists_isVoxel : ∃ (b : Body ℝ) (content : BodyContent ℝ), b.IsVoxel content := by
  let source : BodySource ℝ := ⟨"cube", .ok (.obstacle .origin), [.shape cube], none⟩
  let params : BodyParams ℝ := ⟨cubeGridAt 8, none, none⟩
  let inv : Inventory ℝ := Inventory.empty .standard
  have hposes : FieldPlan.alignPoses 1 (some [.pose Pose.origin]) = (.ok [Pose.origin] : Except (Error ℝ) _) :=
    mapM_eq_ok.mpr (.cons Pose.toPose_origin .nil)
  obtain ⟨f, g, hf, hresolution, hlone, hcenter⟩ := DistanceField.exists_lone_cube hposes
  have hshapes : Inventory.placedShapes source = .ok [⟨cube, .origin⟩] := rfl
  have hrole : source.role = .ok (.obstacle .origin) := rfl
  have hfield : (DistanceField.ofShapes inv.settings (sources [⟨cube, .origin⟩]) (poseSources [⟨cube, .origin⟩])
      params.grid).1 = .ok f := hf
  obtain ⟨b, spacing, samples, inv', -, -, hcontent, -, hsamples, hbodies, -, hrun⟩ :=
    Inventory.exists_build_alone hrole hshapes (List.cons_ne_nil _ _) DistanceField.isBox_cube rfl rfl hfield
  have hb : inv'.body? inv.bodies.size = some b := by
    rw [Inventory.body?, hbodies, Array.getElem?_push_size]
  refine ⟨b, _, ⟨_, _, _, _, _, hrun, hb⟩, hasOwnField_of_run hrun hb nofun, ?_, hcontent, ⟨spacing, hsamples⟩,
    hresolution, ⟨g, hlone⟩, hcenter⟩
  rw [shapes, hcontent]
  rfl

namespace IsVoxel

variable {content : BodyContent ℝ} {t : ℝ} (h : b.IsVoxel content)

include h

/-- What the field is above the middle of the cube, up to the next voxel. -/
theorem interpolate (ht : 0 ≤ t) (ht' : t < 1) :
    InBox content.field ⟨0, 0, t * 8⟩ ∧ content.field.interpolate ⟨0, 0, t * 8⟩ = ((t - 1 / 2) * 8, ⟨0, 0, t⟩) := by
  obtain ⟨g, hlone⟩ := h.lone
  have hp : (⟨0, 0, t * 8⟩ : Vec3 ℝ) = content.field.centerOf ⟨1, 1, 1⟩ + ⟨0, 0, t * content.field.resolution⟩ := by
    rw [h.center, h.resolution]
    simp
  have hinterpolate := hlone.interpolate_above ht ht' hp
  rwa [h.resolution] at hinterpolate

theorem sample_above (ht : 0 ≤ t) (ht' : t < 1) :
    content.field.sample ⟨0, 0, t * 8⟩ = ((t - 1 / 2) * 8, DistanceField.direction ⟨0, 0, t⟩) := by
  obtain ⟨hin, hinterpolate⟩ := h.interpolate ht ht'
  have hgradient := DistanceField.gradientAt_of_inBox hin
  rw [hinterpolate] at hgradient
  refine Prod.ext ?_ ?_
  · rw [DistanceField.sample_of_inBox hin, hinterpolate]
  · rw [DistanceField.sample_snd, hgradient]

/-- The lowest corner is among the samples. -/
theorem corner_mem : ⟨-4, -4, -4⟩ ∈ content.samples := by
  obtain ⟨spacing, hsamples⟩ := h.samples
  refine corner_mem_samplesOf hsamples ?_
  norm_num [Box.half_eq, Primitive.corners, Vec3.neg_def]

/-- The samples are on the faces, so that there are none above the middle within half a voxel. -/
theorem not_mem_samples (ht : 0 ≤ t) (ht' : t < 1 / 2) : ⟨0, 0, t * 8⟩ ∉ content.samples := by
  intro hmem
  obtain ⟨spacing, hsamples⟩ := h.samples
  have hface := Box.mem_face_of_mem_surfacePoints (surfacePoints_of_samplesOf hsamples) hmem
  have hside : ∀ x : ℝ, 0 ≤ x → x < 4 → |x| ≠ |8 / 2| := by
    intro x hx hx'
    rw [abs_of_nonneg hx, abs_of_nonneg (by norm_num)]
    linarith
  rw [Box.half_eq] at hface
  have hzero := hside 0 le_rfl (by norm_num)
  rcases hface with hx | hy | hz
  · exact hzero hx
  · exact hzero hy
  · exact hside (t * 8) (by linarith) (by linarith) hz

end IsVoxel

end Voxel

end Clearance.Body
