import Clearance.Proofs.Field.Plan
import Clearance.Proofs.Collision.Building
import Clearance.Proofs.Shape.Coverage

/-!
# The sphere around a body of boxes

The corners of a box are among the samples of its surface. A sphere around all samples therefore
contains the boxes, and it moves with the body.

* `Box.corner_mem_surfacePoints`, `Box.mem_face_of_mem_surfacePoints`: the corners are samples, and
  all samples lie on the faces.
* `Body.norm_sub_le_of_enclosing`: the sphere contains the samples.
* `Body.norm_sub_le_of_mem_solid`: the sphere contains the boxes.
* `Body.enclosing_box`: around a single box, it is the sphere through the corners.
* `Inventory.exists_finish`, `Inventory.exists_build_boxes`, `Inventory.exists_build_alone`: a body of
  boxes does not fail once its field is obtained.
-/

namespace Clearance

/-! ## Samples -/

namespace Sampling

variable {a b : ℝ} {n : ℕ}

theorem first_mem_closed (hn : 2 ≤ n) : a ∈ closed a b n := by
  rw [closed, List.mem_map]
  refine ⟨0, List.mem_range.mpr (by omega), ?_⟩
  rw [if_neg (by omega)]
  simp

theorem last_mem_closed (hn : 2 ≤ n) : b ∈ closed a b n := by
  rw [closed, List.mem_map]
  exact ⟨n - 1, List.mem_range.mpr (by omega), if_pos (by omega)⟩

theorem two_le_of_count {q : ℝ} (h : count q = .ok n) : 2 ≤ n := by
  obtain ⟨k, -, rfl⟩ := map_eq_ok.mp h
  exact Nat.le_max_left _ _

/-- In exact arithmetic every quotient is counted. -/
theorem exists_count (q : ℝ) : ∃ n, count q = .ok n := by
  have h : ceilInt q = .ok (Scalar.ceil q) := by simp [ceilInt]
  rw [count, h]
  exact ⟨_, rfl⟩

end Sampling

namespace Box

variable {extents v : Vec3 ℝ} {h spacing t : ℝ} {xs : List ℝ} {samples : List (Vec3 ℝ)}

/-- Both ends of an axis are among its samples. -/
theorem mem_axisSamples (hs : axisSamples h spacing = .ok xs) (ht : t ∈ [-h, h]) : t ∈ xs := by
  obtain ⟨n, hn, rfl⟩ := map_eq_ok.mp hs
  simp only [List.mem_cons, List.not_mem_nil, or_false] at ht
  rcases ht with rfl | rfl
  · exact Sampling.first_mem_closed (Sampling.two_le_of_count hn)
  · exact Sampling.last_mem_closed (Sampling.two_le_of_count hn)

/-- The corners of a box are among the samples of its surface. -/
theorem corner_mem_surfacePoints (hs : surfacePoints extents spacing = .ok samples)
    (hv : v ∈ Primitive.corners (-(half extents)) (half extents)) : v ∈ samples := by
  obtain ⟨xs, hxs, hs⟩ := bind_eq_ok.mp hs
  obtain ⟨ys, hys, hs⟩ := bind_eq_ok.mp hs
  obtain ⟨zs, hzs, hs⟩ := bind_eq_ok.mp hs
  obtain rfl := Except.ok.inj hs
  simp only [Primitive.corners, List.mem_flatMap, List.mem_map] at hv
  obtain ⟨x, hx, y, hy, z, hz, rfl⟩ := hv
  have side : ∃ s ∈ ([-1, 1] : List ℝ), s * (half extents).x = x := by
    simp only [Vec3.neg_def, List.mem_cons, List.not_mem_nil, or_false] at hx
    rcases hx with rfl | rfl
    · exact ⟨-1, by simp, by ring⟩
    · exact ⟨1, by simp, by ring⟩
  obtain ⟨s, hs, rfl⟩ := side
  refine List.mem_append_left _ (List.mem_append_left _ ?_)
  simp only [lattice, List.mem_flatMap, List.mem_map, Exact.one_eq]
  exact ⟨s, hs, (y, z), ⟨y, mem_axisSamples hys hy, z, mem_axisSamples hzs hz, rfl⟩, rfl⟩

/-- The samples of the surface of a box lie on its faces. -/
theorem mem_face_of_mem_surfacePoints (hs : surfacePoints extents spacing = .ok samples) (hv : v ∈ samples) :
    |v.x| = |(half extents).x| ∨ |v.y| = |(half extents).y| ∨ |v.z| = |(half extents).z| := by
  obtain ⟨xs, -, hs⟩ := bind_eq_ok.mp hs
  obtain ⟨ys, -, hs⟩ := bind_eq_ok.mp hs
  obtain ⟨zs, -, hs⟩ := bind_eq_ok.mp hs
  obtain rfl := Except.ok.inj hs
  have side : ∀ s ∈ ([-1, 1] : List ℝ), ∀ h : ℝ, |s * h| = |h| := by
    intro s hs h
    rcases List.mem_pair.mp hs with rfl | rfl <;> simp
  simp only [List.mem_append, List.mem_flatMap, List.mem_map, Exact.one_eq] at hv
  rcases hv with (⟨s, hs, _, -, rfl⟩ | ⟨s, hs, _, -, rfl⟩) | ⟨s, hs, _, -, rfl⟩
  · exact .inl (side s hs _)
  · exact .inr (.inl (side s hs _))
  · exact .inr (.inr (side s hs _))

/-- In exact arithmetic every box has samples. -/
theorem exists_surfacePoints (extents : Vec3 ℝ) (spacing : ℝ) :
    ∃ samples, surfacePoints extents spacing = .ok samples := by
  have axis : ∀ h : ℝ, ∃ xs, axisSamples h spacing = .ok xs := by
    intro h
    obtain ⟨n, hn⟩ := Sampling.exists_count (2 * h / spacing)
    exact ⟨Sampling.closed (-h) h n, map_eq_ok.mpr ⟨n, hn, rfl⟩⟩
  obtain ⟨xs, hxs⟩ := axis (half extents).x
  obtain ⟨ys, hys⟩ := axis (half extents).y
  obtain ⟨zs, hzs⟩ := axis (half extents).z
  exact ⟨_, bind_eq_ok.mpr ⟨xs, hxs, bind_eq_ok.mpr ⟨ys, hys, bind_eq_ok.mpr ⟨zs, hzs, rfl⟩⟩⟩⟩

end Box

/-! ## The sphere -/

namespace Body

variable {shapes : List (PlacedShape ℝ)} {samples : List (Vec3 ℝ)} {center v p : Vec3 ℝ}
    {spacing radius : ℝ}
  {s : PlacedShape ℝ}

/-- The sphere around samples contains them. -/
theorem norm_sub_le_of_enclosing (h : enclosing samples = .ok (center, radius)) (hv : v ∈ samples) :
    (v - center).norm ≤ radius := by
  unfold enclosing at h
  split at h
  · dsimp only at h
    split at h
    · rename_i hmax
      obtain ⟨rfl, rfl⟩ := Prod.mk.inj (Except.ok.inj h)
      exact Exact.le_of_maximum hmax (List.mem_map_of_mem hv)
    · cases h
  · cases h

/-- The samples of a placed shape are among those of all. -/
theorem mem_samplesOf (h : samplesOf shapes spacing = .ok samples) (hs : s ∈ shapes) :
    ∃ points, s.shape.surfacePoints spacing = .ok points ∧
    ∀ q ∈ points, s.pose.toMotion.applyRow q ∈ samples := by
  obtain ⟨lists, hlists, h⟩ := bind_eq_ok.mp h
  obtain rfl := Except.ok.inj h
  obtain ⟨images, himages, e⟩ := exists_of_mapM hlists hs
  obtain ⟨points, hp, rfl⟩ := map_eq_ok.mp e
  exact ⟨points, hp, fun q hq => List.mem_flatten.mpr ⟨_, himages, List.mem_map_of_mem hq⟩⟩

/-- The samples of one shape at the origin are those of its surface. -/
theorem surfacePoints_of_samplesOf {shape : Shape ℝ} (h : samplesOf [⟨shape, .origin⟩] spacing = .ok samples) :
    shape.surfacePoints spacing = .ok samples := by
  obtain ⟨lists, hlists, h⟩ := bind_eq_ok.mp h
  obtain rfl := Except.ok.inj h
  cases mapM_eq_ok.mp hlists with
  | cons himages hrest =>
    cases hrest
    obtain ⟨points, hpoints, rfl⟩ := map_eq_ok.mp himages
    have happly : (Pose.origin : Pose ℝ).toMotion.applyRows points = points := by
      rw [Motion.applyRows, List.map_congr_left fun v _ => Pose.applyRow_origin v]
      exact List.map_id _
    rw [List.flatten_singleton, happly]
    exact hpoints

/-- The corners of a box at the origin are among its samples. -/
theorem corner_mem_samplesOf {extents : Vec3 ℝ} (h : samplesOf [⟨.box extents, .origin⟩] spacing = .ok samples)
    (hv : v ∈ Primitive.corners (-(Box.half extents)) (Box.half extents)) : v ∈ samples :=
  Box.corner_mem_surfacePoints (surfacePoints_of_samplesOf h) hv

/-- The sphere around the samples of a box is the one through its corners. -/
theorem enclosing_box {extents : Vec3 ℝ} (hextents : 0 < extents.x ∧ 0 < extents.y ∧ 0 < extents.z)
    (hspacing : 0 < spacing) (hsamples : Box.surfacePoints extents spacing = .ok samples)
    (hsphere : enclosing samples = .ok (center, radius)) :
    center = ⟨0, 0, 0⟩ ∧ radius = (Box.half extents).norm := by
  obtain ⟨points, hpoints, hsurface, -⟩ := Box.exists_cover hextents hspacing
  obtain rfl : samples = points := Except.ok.inj (hsamples.symm.trans hpoints)
  let h := Box.half extents
  have hcoords : ∀ v ∈ samples, |v.x| ≤ h.x ∧ |v.y| ≤ h.y ∧ |v.z| ≤ h.z := by
    intro v hv
    rw [show h = _ from Box.half_eq extents]
    exact (Box.signedDistance_eq_zero_iff.mp (hsurface v hv)).1
  have hlast : ∀ {a b : ℝ}, b ∈ [a, b] := List.mem_cons_of_mem _ (List.mem_singleton_self _)
  have hgreatest : h ∈ samples := Box.corner_mem_surfacePoints hsamples (mem_corners hlast hlast hlast)
  have hleast : -h ∈ samples :=
    Box.corner_mem_surfacePoints hsamples (mem_corners List.mem_cons_self List.mem_cons_self List.mem_cons_self)
  have hmax : Vec3.maximum samples = some h := Vec3.maximum_eq_of_mem hgreatest fun v hv =>
    ⟨(abs_le.mp (hcoords v hv).1).2, (abs_le.mp (hcoords v hv).2.1).2, (abs_le.mp (hcoords v hv).2.2).2⟩
  have hmin : Vec3.minimum samples = some (-h) := Vec3.minimum_eq_of_mem hleast fun v hv =>
    ⟨(abs_le.mp (hcoords v hv).1).1, (abs_le.mp (hcoords v hv).2.1).1, (abs_le.mp (hcoords v hv).2.2).1⟩
  have hmiddle : ∀ t, (-h + h).scale t = ⟨0, 0, 0⟩ := fun t => by simp [Vec3.scale]
  have hto : ∀ v : Vec3 ℝ, v - ⟨0, 0, 0⟩ = v := fun v => by simp
  have hwithin := norm_sub_le_of_enclosing hsphere hgreatest
  unfold enclosing at hsphere
  rw [hmax, hmin] at hsphere
  dsimp only at hsphere
  rw [hmiddle] at hsphere
  split at hsphere
  · rename_i hradius
    obtain ⟨rfl, rfl⟩ := Prod.mk.inj (Except.ok.inj hsphere)
    rw [hto] at hwithin
    refine ⟨rfl, le_antisymm (Exact.maximum_le hradius fun d hd => ?_) hwithin⟩
    obtain ⟨v, hv, rfl⟩ := List.mem_map.mp hd
    obtain ⟨hx, hy, hz⟩ := hcoords v hv
    rw [hto]
    refine Vec3.norm_le_norm (add_le_add (add_le_add ?_ ?_) ?_)
    · exact sq_le_sq.mpr (hx.trans (le_abs_self _))
    · exact sq_le_sq.mpr (hy.trans (le_abs_self _))
    · exact sq_le_sq.mpr (hz.trans (le_abs_self _))
  · cases hsphere

/-- Boxes have samples and a sphere around them. -/
theorem exists_enclosing (hs : ∀ s ∈ shapes, ∃ extents, s.shape = .box extents) (hne : shapes ≠ [])
    (spacing : ℝ) :
    ∃ samples center radius, samplesOf shapes spacing = .ok samples ∧
    enclosing samples = .ok (center, radius) := by
  have sampled : ∀ s ∈ shapes, ∃ images,
      (s.shape.surfacePoints spacing).map s.pose.toMotion.applyRows = .ok images := by
    intro s hmem
    obtain ⟨extents, e⟩ := hs s hmem
    obtain ⟨points, hpoints⟩ := Box.exists_surfacePoints extents spacing
    exact ⟨_, map_eq_ok.mpr ⟨points, e ▸ hpoints, rfl⟩⟩
  obtain ⟨lists, hlists⟩ := exists_mapM sampled
  have hsamples : samplesOf shapes spacing = .ok lists.flatten :=
    bind_eq_ok.mpr ⟨lists, hlists, rfl⟩
  obtain ⟨s, hmem⟩ := List.exists_mem_of_ne_nil shapes hne
  obtain ⟨extents, e⟩ := hs s hmem
  obtain ⟨points, hpoints, himage⟩ := mem_samplesOf hsamples hmem
  rw [e] at hpoints
  have hpoint := Box.corner_mem_surfacePoints hpoints
    (mem_corners List.mem_cons_self List.mem_cons_self List.mem_cons_self)
  have hcorner := himage _ hpoint
  cases hlist : lists.flatten with
  | nil => rw [hlist] at hcorner; exact absurd hcorner List.not_mem_nil
  | cons v vs =>
    rw [hlist] at hsamples
    exact ⟨_, _, _, hsamples, rfl⟩

/-- The sphere around the samples of boxes contains the boxes. -/
theorem norm_sub_le_of_mem_solid (hsamples : samplesOf shapes spacing = .ok samples)
    (hsphere : enclosing samples = .ok (center, radius)) (hs : s ∈ shapes) {extents : Vec3 ℝ}
    (hbox : s.shape = .box extents) (hrigid : s.pose.IsRigid) (hp : p ∈ s.solid) :
    (p - center).norm ≤ radius := by
  obtain ⟨points, hpoints, himage⟩ := mem_samplesOf hsamples hs
  obtain ⟨q, hq, rfl⟩ := hp
  rw [hbox] at hpoints hq
  obtain ⟨v, hv, hle⟩ :=
    exists_norm_sub_le (s.pose.rowToLocal center) (Shape.inBounds_of_mem_solid hq rfl)
  calc (s.pose.toWorld q - center).norm
      = (q - s.pose.rowToLocal center).norm := by
        rw [Pose.toWorld_eq_applyRow, ← Pose.norm_rowToLocal_sub hrigid,
          Pose.rowToLocal_applyRow hrigid]
    _ ≤ (v - s.pose.rowToLocal center).norm := hle
    _ = (s.pose.toMotion.applyRow v - center).norm := by
        rw [← Pose.norm_applyRow_sub hrigid, Pose.applyRow_rowToLocal hrigid]
    _ ≤ radius :=
        norm_sub_le_of_enclosing hsphere (himage v (Box.corner_mem_surfacePoints hpoints hv))

end Body

namespace Inventory

variable {source : BodySource ℝ} {params : BodyParams ℝ} {shapes : List (PlacedShape ℝ)} {role : BodyRole ℝ}

/-- What a body of boxes is, whatever its field. -/
theorem finish_boxes (hrole : source.role = .ok role) (hne : shapes ≠ [])
    (hboxes : ∀ s ∈ shapes, ∃ extents, s.shape = .box extents)
    (hspacing : Body.checkSpacing params.spacing = .ok ⟨⟩) (field : DistanceField ℝ)
    (hold : Option (FieldHold ℝ)) : ∃ spacing samples center radius,
      params.sampleSpacing field = .ok spacing ∧ Body.samplesOf shapes spacing = .ok samples ∧
      Body.enclosing samples = .ok (center, radius) ∧ finish source params shapes field hold =
        .ok ⟨source.name, role, some ⟨shapes, field, hold, samples⟩, center, radius⟩ := by
  have hsample : ∃ spacing, params.sampleSpacing field = .ok spacing := by
    unfold BodyParams.sampleSpacing
    cases hgiven : params.spacing with
    | none => exact ⟨_, rfl⟩
    | some given =>
      rw [hgiven] at hspacing
      obtain ⟨s, hs, -⟩ := bind_eq_ok.mp hspacing
      exact ⟨s, Fault.lift_eq_ok.mp hs⟩
  obtain ⟨spacing, hsample⟩ := hsample
  obtain ⟨samples, center, radius, hsamples, hsphere⟩ := Body.exists_enclosing hboxes hne spacing
  refine ⟨spacing, samples, center, radius, hsample, hsamples, hsphere, ?_⟩
  refine bind_eq_ok.mpr ⟨spacing, hsample, bind_eq_ok.mpr ⟨samples, hsamples, ?_⟩⟩
  exact bind_eq_ok.mpr ⟨(center, radius), hsphere, bind_eq_ok.mpr ⟨role, hrole, rfl⟩⟩

/-- A body of boxes can be finished with any field. -/
theorem exists_finish (hrole : source.role = .ok role) (hne : shapes ≠ [])
    (hboxes : ∀ s ∈ shapes, ∃ extents, s.shape = .box extents)
    (hspacing : Body.checkSpacing params.spacing = .ok ⟨⟩) (field : DistanceField ℝ)
    (hold : Option (FieldHold ℝ)) : ∃ b, finish source params shapes field hold = .ok b := by
  obtain ⟨_, _, _, _, -, -, -, hfinish⟩ := finish_boxes hrole hne hboxes hspacing field hold
  exact ⟨_, hfinish⟩

/-- A body of boxes can be built with any field that is obtained for it. -/
theorem exists_build_boxes {inv inv' : Inventory ℝ} {field : DistanceField ℝ} {hold : Option (FieldHold ℝ)}
    (hrole : source.role = .ok role) (hshapes : placedShapes source = .ok shapes) (hne : shapes ≠ [])
    (hboxes : ∀ s ∈ shapes, ∃ extents, s.shape = .box extents)
    (hspacing : Body.checkSpacing params.spacing = .ok ⟨⟩)
    (hobtain : (obtainField shapes params).run inv = (.ok (field, hold), inv')) :
    ∃ b spacing samples, b.name = source.name ∧ b.role = role ∧
      b.content = some ⟨shapes, field, hold, samples⟩ ∧ params.sampleSpacing field = .ok spacing ∧
      Body.samplesOf shapes spacing = .ok samples ∧ Body.enclosing samples = .ok (b.center, b.radius) ∧
      (build source params).run inv = (.ok inv'.bodies.size, { inv' with bodies := inv'.bodies.push b }) := by
  obtain ⟨spacing, samples, center, radius, hsample, hsamples, hsphere, hfinish⟩ :=
    finish_boxes hrole hne hboxes hspacing field hold
  exact ⟨_, spacing, samples, rfl, rfl, rfl, hsample, hsamples, hsphere,
    run_build hshapes hspacing hobtain hfinish⟩

/-- A body of boxes can be built with a field of its own as soon as there is such a field. -/
theorem exists_build_alone {inv : Inventory ℝ} {field : DistanceField ℝ} (hrole : source.role = .ok role)
    (hshapes : placedShapes source = .ok shapes) (hne : shapes ≠ [])
    (hboxes : ∀ s ∈ shapes, ∃ extents, s.shape = .box extents)
    (hspacing : Body.checkSpacing params.spacing = .ok ⟨⟩) (hcache : params.cache = none)
    (hfield : (DistanceField.ofShapes inv.settings (sources shapes) (poseSources shapes) params.grid).1 = .ok field) :
    ∃ b spacing samples inv', b.name = source.name ∧ b.role = role ∧
      b.content = some ⟨shapes, field, none, samples⟩ ∧ params.sampleSpacing field = .ok spacing ∧
      Body.samplesOf shapes spacing = .ok samples ∧ inv'.bodies = inv.bodies.push b ∧
      inv'.settings = inv.settings ∧ (build source params).run inv = (.ok inv.bodies.size, inv') := by
  let built := DistanceField.ofShapes inv.settings (sources shapes) (poseSources shapes) params.grid
  have hobtain : (obtainField shapes params).run inv =
      (.ok (field, none), { inv with events := inv.events ++ built.2.toArray }) := by
    rw [obtainField_alone inv shapes hcache]
    dsimp only
    rw [hfield]
    rfl
  obtain ⟨b, spacing, samples, hname, hrole', hcontent, hsample, hsamples, -, hrun⟩ :=
    exists_build_boxes hrole hshapes hne hboxes hspacing hobtain
  refine ⟨b, spacing, samples, _, hname, hrole', hcontent, hsample, hsamples, ?_, ?_, hrun⟩
  · rfl
  · rfl

end Inventory

end Clearance
