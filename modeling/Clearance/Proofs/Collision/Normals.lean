import Clearance.Proofs.Collision.Contacts
import Clearance.Proofs.Collision.OwnFields

/-!
# How long the directions of contacts are

The direction of a contact is that of the field in which its sample lies, turned into the world. It
has length one where the vector that it is the direction of is long enough to have one, and elsewhere
it is zero: the directions of the voxels around a sample can cancel each other out. In a field that is
built of the boxes, spheres and cylinders of its body, every contact lies between the voxel centres, so
that the vector is always interpolated.

* `PlacedBody.Sizes`: the length of a direction, as the field of a body tells it.
* `Check.normals_of_rigid`: the contacts that a query adds.
* `Check.exists_without_direction`: two cubes and a contact that has none.
-/

namespace Clearance

open DistanceField (InBox direction directionTolerance)

/-! ## Directions in the field of a placed body -/

/-- A placed body that was built of boxes, spheres and cylinders and stands at a rigid pose. -/
structure Check.IsPlacedSolids (b : PlacedBody ℝ) : Prop where
  built : b.body.IsBuilt
  solid : AreSolid b.body.shapes
  rigid : b.pose.IsRigid

open Check (IsPlacedSolids)

namespace PlacedBody

/-- The vector whose direction a body's field has at a place in the world, seen from the body. -/
noncomputable def gradientAt (b : PlacedBody ℝ) (content : BodyContent ℝ) (v : Vec3 ℝ) : Vec3 ℝ :=
  content.field.gradientAt (b.pose.rowToLocal v)

/-- A direction at a place in a body's field has length one if the vector that it is the direction of
    is longer than the tolerance, and is zero if it is not. If the body is built of boxes, spheres and
    cylinders and has a field of them, the place lies in the box of the field's voxel centres, and that
    vector is the one that is interpolated there. -/
structure Sizes (b : PlacedBody ℝ) (content : BodyContent ℝ) (position normal : Vec3 ℝ) : Prop where
  unit : directionTolerance < (b.gradientAt content position).norm → normal.norm = 1
  zero : ¬ directionTolerance < (b.gradientAt content position).norm → normal = ⟨0, 0, 0⟩
  interpolated : IsPlacedSolids b → b.body.HasOwnField → InBox content.field (b.pose.rowToLocal position) ∧
    b.gradientAt content position = (content.field.interpolate (b.pose.rowToLocal position)).2

variable {b : PlacedBody ℝ} {content : BodyContent ℝ} {position normal : Vec3 ℝ}

theorem Sizes.opposite (h : b.Sizes content position normal) : b.Sizes content position (-normal) := by
  refine ⟨fun hlt => ?_, fun hnot => ?_, h.interpolated⟩
  · rw [Vec3.norm_neg, h.unit hlt]
  · rw [h.zero hnot]
    simp

/-- Where the distance in the field of a body of boxes, spheres and cylinders is not positive, the
    point lies in the box of the voxel centres. -/
theorem inBox_of_nonpos (hb : IsPlacedSolids b) (hown : b.body.HasOwnField) (hcontent : b.content = .ok content)
    {v : Vec3 ℝ} (hv : (content.field.sample v).1 ≤ 0) : InBox content.field v := by
  have howned := content_eq_ok.mp hcontent
  have hshapes : b.body.shapes = content.shapes := by
    rw [Body.shapes, howned]
    rfl
  obtain ⟨g, hg⟩ := (hown content howned).exists_isFieldOf (hshapes ▸ hb.solid)
  exact hg.measures.inBox_of_nonpos hv

/-- Where the distance is not positive, the direction of a body's field has the length that is told. -/
theorem sizes_outward (hrigid : b.pose.IsRigid) (hcontent : b.content = .ok content)
    (hle : (content.field.sample (b.pose.rowToLocal position)).1 ≤ 0) :
    b.Sizes content position (b.outward content position) := by
  have houtward : b.outward content position =
      b.pose.toMotion.rotateRow (direction (b.gradientAt content position)) := by
    rw [outward, DistanceField.sample_snd]
    rfl
  rw [houtward]
  refine ⟨fun hlt => ?_, fun hnot => ?_, fun hb hown => ?_⟩
  · rw [Pose.norm_rotateRow hrigid, DistanceField.norm_direction_of_lt hlt]
  · rw [DistanceField.direction_of_not_lt hnot]
    simp [Motion.rotateRow, Mat3.vecMul]
  · have hin := inBox_of_nonpos hb hown hcontent hle
    exact ⟨hin, DistanceField.gradientAt_of_inBox hin⟩

end PlacedBody

/-! ## Contacts -/

namespace PlacedPair

/-- A contact of a pair is at a sample of one of its bodies, and the field of the other tells how long
    its direction is. -/
def Sizes (p : PlacedPair ℝ) (c : Contact (Vec3 ℝ) ℝ) : Prop :=
  (c.position ∈ p.second.samples p.secondContent ∧ p.first.Sizes p.firstContent c.position c.normal) ∨
  (c.position ∈ p.first.samples p.firstContent ∧ p.second.Sizes p.secondContent c.position c.normal)

/-- A sample of a body in the field of another, as it is or turned round. -/
theorem sizes_of_mem_oriented {a b : PlacedBody ℝ} {ca cb : BodyContent ℝ} (ha : a.pose.IsRigid)
    (hca : a.content = .ok ca) {p : PlacedPair ℝ} {h : Hit ℝ}
    (hh : h ∈ p.oriented a (hitsIn a b ca.field cb.samples)) (hle : h.distance ≤ 0) :
    h.position ∈ b.samples cb ∧ a.Sizes ca h.position h.normal := by
  have hsizes : ∀ h ∈ hitsIn a b ca.field cb.samples, h.distance ≤ 0 → a.Sizes ca h.position h.normal := by
    intro h hh hle
    obtain ⟨v, -, rfl⟩ := List.mem_map.mp hh
    exact PlacedBody.sizes_outward ha hca hle
  unfold oriented at hh
  split at hh
  · exact ⟨(of_mem_hitsIn hh).1, hsizes h hh hle⟩
  · obtain ⟨h', hmem, rfl⟩ := List.mem_map.mp hh
    exact ⟨(of_mem_hitsIn hmem).1, (hsizes h' hmem hle).opposite⟩

/-- The contacts of a pair of bodies at rigid poses. -/
theorem sizes_of_has {a b : PlacedBody ℝ} {p : PlacedPair ℝ} (hp : PlacedPair.of a b = .ok p)
    (ha : a.pose.IsRigid) (hb : b.pose.IsRigid) {key : String × String} {c : Contact (Vec3 ℝ) ℝ}
    (h : p.Has key c) : p.Sizes c := by
  obtain ⟨hca, hcb, rfl, rfl⟩ := of_eq_ok.mp hp
  obtain ⟨-, hit, hmem, hle, rfl⟩ := h
  have hle' : hit.distance ≤ 0 := by simpa using hle
  exact (List.mem_append.mp hmem).imp (sizes_of_mem_oriented ha hca · hle')
    (sizes_of_mem_oriented hb hcb · hle')

end PlacedPair

namespace Check

/-- Whatever bodies at rigid poses a query looks at, the direction of every contact that it adds has
    length one, unless the vector that it is the direction of, in the field of the other body, is not
    longer than the tolerance; then it is zero. For bodies of boxes, spheres and cylinders that have
    fields of them this vector is the one that is interpolated at the sample. -/
theorem normals_of_rigid (request : CollisionRequest ℝ) (candidates : List (Candidate ℝ))
    (hrigid : ∀ a b, Candidate.pair a b ∈ candidates → a.pose.IsRigid ∧ b.pose.IsRigid)
    (old : CollisionResult ℝ) (events : Array (Event ℝ)) :
    Adds (fun key c => ∃ a b p, Candidate.pair a b ∈ candidates ∧ PlacedPair.of a b = .ok p ∧ key = p.key ∧
      p.Sizes c) old (run request candidates old events).result := by
  refine (adds_run candidates events).mono ?_
  rintro key c ⟨a, b, p, hab, hp, hc⟩
  obtain ⟨ha, hb⟩ := hrigid a b hab
  exact ⟨a, b, p, hab, hp, hc.1, PlacedPair.sizes_of_has hp ha hb hc⟩

/-! ## Two cubes of one voxel -/

section Cubes

open Body (IsVoxel exists_isVoxel)
open Checkers (placedBase)
open DistanceField (cube)

/-- The cube with its lowest corner above the middle of the first one, by so many voxels. -/
noncomputable def raised (b : Body ℝ) (t : ℝ) : PlacedBody ℝ :=
  ⟨"tool", some "tool", "robot_link", b, ⟨⟨4, 4, 4 + t * 8⟩, Mat3.identity, ""⟩, []⟩

/-- The two cubes. -/
noncomputable def stacked (b : Body ℝ) (content : BodyContent ℝ) (t : ℝ) : PlacedPair ℝ :=
  ⟨placedBase b, raised b t, content, content⟩

/-- The lowest corner of the second cube in the field of the first. -/
noncomputable def cornerHit (t : ℝ) : Hit ℝ := ⟨(t - 1 / 2) * 8, ⟨0, 0, t * 8⟩, direction ⟨0, 0, t⟩⟩

variable {b : Body ℝ} {content : BodyContent ℝ} {t : ℝ}

theorem key_stacked : (stacked b content t).key = ("base", "tool") :=
  (by decide : pairKey "base" "tool" = ("base", "tool"))

theorem of_stacked (h : IsVoxel b content) (t : ℝ) :
    PlacedPair.of (placedBase b) (raised b t) = .ok (stacked b content t) :=
  PlacedPair.of_eq_ok.mpr ⟨PlacedBody.content_eq_ok.mpr h.owned, PlacedBody.content_eq_ok.mpr h.owned, rfl, rfl⟩

theorem isRigid_stacked (t : ℝ) : ∀ p q : PlacedBody ℝ,
    Candidate.pair p q ∈ [Candidate.pair (placedBase b) (raised b t)] → p.pose.IsRigid ∧ q.pose.IsRigid := by
  intro p q hpq
  cases List.mem_singleton.mp hpq
  exact ⟨Mat3.isOrthogonal_identity, Mat3.isOrthogonal_identity⟩

theorem isPlacedSolids_voxel (h : IsVoxel b content) {p : PlacedBody ℝ} (hp : p.body = b)
    (hrigid : p.pose.IsRigid) : IsPlacedSolids p := by
  refine ⟨hp ▸ h.built, ?_, hrigid⟩
  rw [hp, h.shapes]
  exact DistanceField.areSolid_cube

theorem solids_stacked (h : IsVoxel b content) (t : ℝ) :
    IsPlacedSolids (placedBase b) ∧ IsPlacedSolids (raised b t) := by
  obtain ⟨hlower, hraised⟩ :=
    isRigid_stacked t _ _ (List.mem_singleton_self (Candidate.pair (placedBase b) (raised b t)))
  exact ⟨isPlacedSolids_voxel h rfl hlower, isPlacedSolids_voxel h rfl hraised⟩

theorem cornerHit_mem (h : IsVoxel b content) (ht : 0 ≤ t) (ht' : t < 1) :
    cornerHit t ∈ (stacked b content t).hits := by
  have hplace : (raised b t).pose.toMotion.applyRow ⟨-4, -4, -4⟩ = ⟨0, 0, t * 8⟩ := by
    simp [raised, Motion.applyRow, Pose.toMotion, Mat3.vecMul, Mat3.identity, Mat3.transpose]
  have hhit : Hit.lookUp (placedBase b).pose content.field ⟨0, 0, t * 8⟩ = cornerHit t :=
    h.lookUp ht ht' rfl (Pose.rowToLocal_origin _)
  have hfirst : (placedBase b).name = (stacked b content t).key.1 := by
    rw [key_stacked]
    rfl
  have hmem : cornerHit t ∈ PlacedPair.hitsIn (placedBase b) (raised b t) content.field content.samples :=
    List.mem_map.mpr ⟨_, h.corner_mem, (congrArg (Hit.lookUp _ _) hplace).trans hhit⟩
  refine List.mem_append_left _ ?_
  rw [PlacedPair.oriented]
  exact (if_pos hfirst).symm ▸ hmem

/-- The lowest corner of the second cube is a contact up to half a voxel above the middle of the
    first. -/
theorem contact_mem (h : IsVoxel b content) (ht : 0 ≤ t) (ht' : t ≤ 1 / 2) :
    contactAt (stacked b content t) (cornerHit t) ∈
      under (run (allOfEach (contactCount (stacked b content t))) [.pair (placedBase b) (raised b t)] .empty
        #[]).result.contacts ("base", "tool") := by
  have hle : (cornerHit t).distance ≤ 0 := by
    simp only [cornerHit]
    linarith
  have hcontact := contactAt_mem (of_stacked h t) (cornerHit_mem h ht (by linarith)) hle
  rwa [key_stacked] at hcontact

/-- A quarter of a voxel above the middle, the contact at the corner has a direction. -/
theorem normals_of_rigid_raised : ∃ b content request c, b.content = some content ∧ b.HasOwnField ∧
    IsPlacedSolids (placedBase b) ∧ IsPlacedSolids (raised b (1 / 4)) ∧
    c ∈ under (run request [.pair (placedBase b) (raised b (1 / 4))] .empty #[]).result.contacts ("base", "tool") ∧
    c.position = ⟨0, 0, 2⟩ ∧ InBox content.field c.position ∧
    directionTolerance < (content.field.interpolate c.position).2.norm ∧ c.normal.norm = 1 := by
  obtain ⟨b, content, h⟩ := exists_isVoxel
  let request := allOfEach (contactCount (stacked b content (1 / 4)))
  let c := contactAt (stacked b content (1 / 4)) (cornerHit (1 / 4))
  have hc : c ∈ under (run request [.pair (placedBase b) (raised b (1 / 4))] .empty #[]).result.contacts
      ("base", "tool") :=
    contact_mem h (by norm_num) (by norm_num)
  obtain ⟨hlower, hraised⟩ := solids_stacked h (1 / 4)
  obtain ⟨new, hnew, hsizes⟩ := normals_of_rigid request [.pair (placedBase b) (raised b (1 / 4))]
    (isRigid_stacked (1 / 4)) .empty #[] ("base", "tool")
  have hmem : c ∈ new := (List.mem_append.mp (hnew ▸ hc)).resolve_left List.not_mem_nil
  obtain ⟨p, q, pair, hpq, hof, -, hsize⟩ := hsizes c hmem
  cases List.mem_singleton.mp hpq
  cases (of_stacked h (1 / 4)).symm.trans hof
  have hlocal : (placedBase b).pose.rowToLocal c.position = c.position := Pose.rowToLocal_origin _
  have hlong : directionTolerance < (content.field.interpolate c.position).2.norm := by
    have hinterpolated : (content.field.interpolate c.position).2 = ⟨0, 0, 1 / 4⟩ :=
      congrArg Prod.snd (h.interpolate (by norm_num) (by norm_num)).2
    rw [hinterpolated, Vec3.norm_onAxis, directionTolerance, Exact.trillionth_eq, abs_of_pos (by norm_num)]
    norm_num
  have hfirst : (placedBase b).Sizes content c.position c.normal := by
    rcases hsize with ⟨-, hsize⟩ | ⟨hsample, -⟩
    · exact hsize
    · obtain ⟨v, hv, hplace⟩ := List.mem_map.mp hsample
      have hplace : v = ⟨0, 0, 1 / 4 * 8⟩ := (Pose.applyRow_origin v).symm.trans hplace
      exact absurd (hplace ▸ hv) (h.not_mem_samples (by norm_num) (by norm_num))
  obtain ⟨hin, hgradient⟩ := hfirst.interpolated hlower h.ownField
  rw [hlocal] at hin hgradient
  refine ⟨b, content, request, c, h.owned, h.ownField, hlower, hraised, hc, ?_, hin, hlong,
    hfirst.unit (hgradient ▸ hlong)⟩
  show (⟨0, 0, 1 / 4 * 8⟩ : Vec3 ℝ) = _
  norm_num

/-- With the corner of the second cube in the middle of the first, the contact there has no
    direction. -/
theorem exists_without_direction : ∃ a b request c,
    IsPlacedSolids a ∧ a.body.HasOwnField ∧ a.body.shapes = [⟨cube, .origin⟩] ∧ a.pose = .origin ∧
    IsPlacedSolids b ∧ b.body.HasOwnField ∧ b.body.shapes = [⟨cube, .origin⟩] ∧
    b.pose = ⟨⟨4, 4, 4⟩, Mat3.identity, ""⟩ ∧
    request.validate = .ok () ∧ request.contacts = true ∧
    c ∈ under (run request [.pair a b] .empty #[]).result.contacts (a.name, b.name) ∧
    c.normal = ⟨0, 0, 0⟩ ∧ c.normal.norm ≠ 1 := by
  obtain ⟨b, content, h⟩ := exists_isVoxel
  obtain ⟨hlower, hraised⟩ := solids_stacked h 0
  have hnormal : (contactAt (stacked b content 0) (cornerHit 0)).normal = ⟨0, 0, 0⟩ := DistanceField.direction_zero
  refine ⟨placedBase b, raised b 0, allOfEach (contactCount (stacked b content 0)), _, hlower, h.ownField,
    h.shapes, rfl, hraised, h.ownField, h.shapes, by simp [raised],
    CollisionRequest.validate_counted (allOfEach _), rfl, contact_mem h le_rfl (by norm_num), hnormal, ?_⟩
  rw [hnormal, Vec3.norm_onAxis, abs_zero]
  exact zero_ne_one

end Cubes

end Check

end Clearance
