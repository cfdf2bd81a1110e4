import Clearance.Proofs.Shape.Samples
import Clearance.Proofs.Outcomes

/-!
# Samples cover the surface

The samples of a box, a sphere or a cylinder lie on its surface, and those of a box and a cylinder
leave no point of the surface farther away than the spacing: on a face two lengths are sampled, on the
side of a cylinder a length and a circle, on its caps a radius and the circle that the nearest ring or
the end of the side is.

* `Box.signedDistance_eq_zero_iff`, `Cylinder.signedDistance_eq_zero_iff`: the points of a surface.
* `Cylinder.HasParts`: side, centres and rings.
* `Box.exists_cover`, `Sphere.exists_samples`, `Cylinder.exists_cover`: the three shapes.
* `Shape.samples_cover_surface`: all of them, as the program takes them.
-/

namespace Clearance

open Sampling

namespace Vec3

theorem beyond_eq_zero_iff {e : Vec3 ℝ} :
    beyond e = 0 ↔ (e.x ≤ 0 ∧ e.y ≤ 0 ∧ e.z ≤ 0) ∧ (e.x = 0 ∨ e.y = 0 ∨ e.z = 0) := by
  constructor
  · intro h
    obtain ⟨hx, hy, hz⟩ := beyond_nonpos_iff.mp h.le
    rw [beyond_of_nonpos hx hy hz] at h
    exact ⟨⟨hx, hy, hz⟩,
      (nonneg_max_iff.mp h.ge).imp (le_antisymm hx) (Or.imp (le_antisymm hy) (le_antisymm hz))⟩
  · rintro ⟨⟨hx, hy, hz⟩, h⟩
    exact beyond_eq_zero hx hy hz h

theorem norm_le_sum_abs (v : Vec3 ℝ) : v.norm ≤ |v.x| + |v.y| + |v.z| := by
  rw [norm_le_iff (by positivity), normSq, ← sq_abs v.x, ← sq_abs v.y, ← sq_abs v.z]
  nlinarith [mul_nonneg (abs_nonneg v.x) (abs_nonneg v.y), mul_nonneg (abs_nonneg v.y) (abs_nonneg v.z),
    mul_nonneg (abs_nonneg v.x) (abs_nonneg v.z)]

end Vec3

/-! ## Boxes -/

namespace Box

variable {extents p : Vec3 ℝ} {spacing : ℝ} {xs ys zs : List ℝ}

/-- The points of the surface: beyond no face, and on one of them. -/
theorem signedDistance_eq_zero_iff : signedDistance extents p = 0 ↔
    (|p.x| ≤ extents.x / 2 ∧ |p.y| ≤ extents.y / 2 ∧ |p.z| ≤ extents.z / 2) ∧
      (|p.x| = extents.x / 2 ∨ |p.y| = extents.y / 2 ∨ |p.z| = extents.z / 2) := by
  rw [signedDistance_eq_beyond, Vec3.beyond_eq_zero_iff]
  simp only [excess, sub_nonpos, sub_eq_zero]

theorem exists_axisSamples {a : ℝ} (ha : 0 ≤ a) (hspacing : 0 < spacing) :
    ∃ xs, axisSamples a spacing = .ok xs ∧ IsSampled xs (-a) a spacing := by
  obtain ⟨n, hn, htwo, hle⟩ := exists_count_ge (2 * a / spacing)
  refine ⟨_, map_eq_ok.mpr ⟨n, hn, rfl⟩, isSampled_closed (by linarith) hspacing htwo ?_⟩
  rwa [show a - -a = 2 * a by ring]

/-- A coordinate on one of two opposite faces. -/
theorem exists_sign_iff {a x : ℝ} (ha : 0 ≤ a) : (∃ s ∈ ([-1, 1] : List ℝ), s * a = x) ↔ |x| = a := by
  simp only [List.mem_cons, List.not_mem_nil, or_false, exists_eq_or_imp, exists_eq_left, neg_one_mul, one_mul]
  rw [abs_eq ha, or_comm, eq_comm, eq_comm (a := -a)]

/-- The samples of two opposite faces: one coordinate on the face, and the other two among the samples. -/
theorem mem_opposite_iff {a x u v : ℝ} (ha : 0 ≤ a) {us vs : List ℝ} {place : ℝ → ℝ × ℝ → Vec3 ℝ}
    (hplace : ∀ s w, place s w = p ↔ s * a = x ∧ w.1 = u ∧ w.2 = v) :
    p ∈ (([-1, 1] : List ℝ).flatMap fun s => (lattice us vs).map (place s)) ↔ |x| = a ∧ u ∈ us ∧ v ∈ vs := by
  rw [← exists_sign_iff ha]
  simp only [lattice, List.mem_flatMap, List.mem_map, hplace]
  constructor
  · rintro ⟨s, hs, w, ⟨u', hu, v', hv, rfl⟩, hx, rfl, rfl⟩
    exact ⟨⟨s, hs, hx⟩, hu, hv⟩
  · rintro ⟨⟨s, hs, hx⟩, hu, hv⟩
    exact ⟨s, hs, (u, v), ⟨u, hu, v, hv, rfl⟩, hx, rfl, rfl⟩

/-- What the samples of the surface are, from samples along the axes. -/
theorem exists_mem_surfacePoints_iff (hextents : 0 ≤ (half extents).x ∧ 0 ≤ (half extents).y ∧ 0 ≤ (half extents).z)
    (hxs : axisSamples (half extents).x spacing = .ok xs) (hys : axisSamples (half extents).y spacing = .ok ys)
    (hzs : axisSamples (half extents).z spacing = .ok zs) :
    ∃ points, surfacePoints extents spacing = .ok points ∧ ∀ p, p ∈ points ↔
      (|p.x| = (half extents).x ∧ p.y ∈ ys ∧ p.z ∈ zs) ∨ (|p.y| = (half extents).y ∧ p.x ∈ xs ∧ p.z ∈ zs) ∨
        (|p.z| = (half extents).z ∧ p.x ∈ xs ∧ p.y ∈ ys) := by
  refine ⟨_, bind_eq_ok.mpr ⟨xs, hxs, bind_eq_ok.mpr ⟨ys, hys, bind_eq_ok.mpr ⟨zs, hzs, rfl⟩⟩⟩, fun p => ?_⟩
  rw [List.mem_append, List.mem_append, or_assoc, Exact.one_eq]
  refine or_congr (mem_opposite_iff hextents.1 fun s w => ?_) (or_congr (mem_opposite_iff hextents.2.1 fun s w => ?_)
    (mem_opposite_iff hextents.2.2 fun s w => ?_))
  · exact Vec3.ext_iff
  · exact Vec3.ext_iff.trans and_left_comm
  · exact Vec3.ext_iff.trans (and_assoc.symm.trans and_comm)

/-- The samples of a box lie on its surface and cover it. -/
theorem exists_cover (hextents : 0 < extents.x ∧ 0 < extents.y ∧ 0 < extents.z) (hspacing : 0 < spacing) :
    ∃ points, surfacePoints extents spacing = .ok points ∧ (∀ p ∈ points, signedDistance extents p = 0) ∧
      ∀ p, signedDistance extents p = 0 → ∃ q ∈ points, (p - q).norm ≤ spacing := by
  have hhalf : 0 ≤ (half extents).x ∧ 0 ≤ (half extents).y ∧ 0 ≤ (half extents).z := by
    rw [half_eq]
    exact ⟨(half_pos hextents.1).le, (half_pos hextents.2.1).le, (half_pos hextents.2.2).le⟩
  obtain ⟨xs, hxs, sx⟩ := exists_axisSamples hhalf.1 hspacing
  obtain ⟨ys, hys, sy⟩ := exists_axisSamples hhalf.2.1 hspacing
  obtain ⟨zs, hzs, sz⟩ := exists_axisSamples hhalf.2.2 hspacing
  obtain ⟨points, hpoints, hmem⟩ := exists_mem_surfacePoints_iff hhalf hxs hys hzs
  rw [half_eq] at hmem sx sy sz
  refine ⟨points, hpoints, fun p hp => ?_, fun p hp => ?_⟩
  · rcases (hmem p).mp hp with ⟨h, hy, hz⟩ | ⟨h, hx, hz⟩ | ⟨h, hx, hy⟩
    · exact signedDistance_eq_zero h.le (abs_le.mpr (sy.bounds _ hy)) (abs_le.mpr (sz.bounds _ hz)) (.inl h)
    · exact signedDistance_eq_zero (abs_le.mpr (sx.bounds _ hx)) h.le (abs_le.mpr (sz.bounds _ hz)) (.inr (.inl h))
    · exact signedDistance_eq_zero (abs_le.mpr (sx.bounds _ hx)) (abs_le.mpr (sy.bounds _ hy)) h.le (.inr (.inr h))
  · obtain ⟨⟨hx, hy, hz⟩, hface⟩ := signedDistance_eq_zero_iff.mp hp
    obtain ⟨x, hx, dx⟩ := sx.near p.x (abs_le.mp hx).1 (abs_le.mp hx).2
    obtain ⟨y, hy, dy⟩ := sy.near p.y (abs_le.mp hy).1 (abs_le.mp hy).2
    obtain ⟨z, hz, dz⟩ := sz.near p.z (abs_le.mp hz).1 (abs_le.mp hz).2
    -- The coordinate on the face is kept, and the other two are off by half of the spacing each.
    have hle : ∀ v : Vec3 ℝ, |v.x| + |v.y| + |v.z| ≤ spacing → v.norm ≤ spacing :=
      fun v => (Vec3.norm_le_sum_abs v).trans
    rcases hface with h | h | h
    · refine ⟨⟨p.x, y, z⟩, (hmem _).mpr (.inl ⟨h, hy, hz⟩), hle _ ?_⟩
      simp only [Vec3.sub_def, sub_self, abs_zero]
      linarith
    · refine ⟨⟨x, p.y, z⟩, (hmem _).mpr (.inr (.inl ⟨h, hx, hz⟩)), hle _ ?_⟩
      simp only [Vec3.sub_def, sub_self, abs_zero]
      linarith
    · refine ⟨⟨x, y, p.z⟩, (hmem _).mpr (.inr (.inr ⟨h, hx, hy⟩)), hle _ ?_⟩
      simp only [Vec3.sub_def, sub_self, abs_zero]
      linarith

end Box

/-! ## Spheres -/

namespace Sphere

variable {radius spacing : ℝ}

/-- Whatever its angles are, a point of the spiral is on the sphere. -/
theorem norm_spiralPoint (hr : 0 ≤ radius) (n i : ℕ) : (spiralPoint radius n i).norm = radius := by
  have hpolar : ∀ phi theta : ℝ, (⟨radius * (Real.cos theta * Real.sin phi), radius * (Real.sin theta * Real.sin phi),
      radius * Real.cos phi⟩ : Vec3 ℝ).norm = radius := by
    intro phi theta
    refine (Vec3.norm_eq_abs ?_).trans (abs_of_nonneg hr)
    have hphi := Real.cos_sq_add_sin_sq phi
    have htheta := Real.cos_sq_add_sin_sq theta
    rw [Vec3.normSq]
    linear_combination radius ^ 2 * hphi + radius ^ 2 * Real.sin phi ^ 2 * htheta
  exact hpolar _ _

/-- The samples of a sphere lie on it. -/
theorem exists_samples (hr : 0 < radius) (hspacing : 0 < spacing) :
    ∃ points, surfacePoints radius spacing = .ok points ∧ ∀ p ∈ points, signedDistance radius p = 0 := by
  obtain ⟨n, hn, -⟩ := exists_atLeast_ge 8 (4 * Real.pi * (radius * radius) / (spacing * spacing))
  have hquotient : quotient (4 * Real.pi * (radius * radius)) (spacing * spacing) = .ok _ :=
    quotient_eq (mul_pos hspacing hspacing).ne'
  refine ⟨_, bind_eq_ok.mpr ⟨_, square_eq radius, bind_eq_ok.mpr ⟨_, square_eq spacing,
    bind_eq_ok.mpr ⟨_, hquotient, bind_eq_ok.mpr ⟨n, hn, rfl⟩⟩⟩⟩, fun p hp => ?_⟩
  obtain ⟨i, -, rfl⟩ := List.mem_map.mp hp
  exact sub_eq_zero_of_eq (norm_spiralPoint hr.le n i)

end Sphere

/-! ## Cylinders -/

namespace Cylinder

variable {radius height spacing top r : ℝ} {p : Vec3 ℝ} {ring : List (Vec3 ℝ)}

/-- The points of the surface: beyond neither side nor caps, and on one of them. -/
theorem signedDistance_eq_zero_iff : signedDistance radius height p = 0 ↔
    (rho p ≤ radius ∧ |p.z| ≤ height / 2) ∧ (rho p = radius ∨ |p.z| = height / 2) := by
  refine ⟨fun h => ?_, fun h => signedDistance_eq_zero h.1.1 h.1.2 h.2⟩
  -- The third excess stands for no face, so it is taken to be negative.
  have hneg : min (rho p - radius) 0 - 1 < 0 := by linarith [min_le_right (rho p - radius) 0]
  have hside : min (rho p - radius) 0 - 1 ≤ rho p - radius := by linarith [min_le_left (rho p - radius) 0]
  rw [signedDistance_eq_beyond hneg.le hside, Vec3.beyond_eq_zero_iff] at h
  obtain ⟨⟨hr, hz, -⟩, h⟩ := h
  refine ⟨⟨sub_nonpos.mp hr, sub_nonpos.mp hz⟩, ?_⟩
  rcases h with h | h | h
  · exact .inl (sub_eq_zero.mp h)
  · exact .inr (sub_eq_zero.mp h)
  · exact absurd h hneg.ne

/-- The two rings of a radius are on the caps, and leave no point of their circles farther away than half
    of the spacing. -/
structure IsCapRing (top spacing r : ℝ) (ring : List (Vec3 ℝ)) : Prop where
  on_caps : ∀ p ∈ ring, rho p = r ∧ (p.z = -top ∨ p.z = top)
  near : ∀ angle z, z = -top ∨ z = top → ∃ q ∈ ring, (onCircle r angle z - q).norm ≤ spacing / 2

theorem exists_capRing (hr : 0 ≤ r) (hspacing : 0 < spacing) (top : ℝ) :
    ∃ ring, capRing top spacing r = .ok ring ∧ IsCapRing top spacing r ring := by
  obtain ⟨n, hn, hsix, hcount⟩ := exists_atLeast_ge 6 (2 * Real.pi * r / spacing)
  refine ⟨_, bind_eq_ok.mpr ⟨n, hn, rfl⟩, fun p hp => ?_, fun angle z hz => ?_⟩
  · obtain ⟨z, hz, hp⟩ := List.mem_flatMap.mp hp
    obtain ⟨t, -, rfl⟩ := List.mem_map.mp hp
    exact ⟨rho_onCircle hr, List.mem_pair.mp hz⟩
  · obtain ⟨t, ht, hle⟩ := exists_onCircle_near hr hspacing (by omega) hcount angle z
    exact ⟨_, List.mem_flatMap.mpr ⟨z, List.mem_pair.mpr hz, List.mem_map.mpr ⟨t, ht, rfl⟩⟩, hle⟩

/-- Every radius but the first and the last has its rings, and every ring is one of a radius. -/
theorem exists_rings {radii : List ℝ} (hradii : ∀ r ∈ radii, 0 ≤ r) (hspacing : 0 < spacing) (top : ℝ) :
    ∃ rings, radii.mapM (capRing top spacing) = .ok rings ∧
      (∀ r ∈ radii, ∃ ring ∈ rings, IsCapRing top spacing r ring) ∧
      ∀ ring ∈ rings, ∃ r ∈ radii, IsCapRing top spacing r ring := by
  have spec : ∀ {r ring}, r ∈ radii → capRing top spacing r = .ok ring → IsCapRing top spacing r ring := by
    intro r ring hr h
    obtain ⟨ring', h', hring⟩ := exists_capRing (hradii r hr) hspacing top
    obtain rfl := Except.ok.inj (h.symm.trans h')
    exact hring
  obtain ⟨rings, hrings⟩ := exists_mapM fun r hr =>
    (exists_capRing (hradii r hr) hspacing top).imp fun _ h => h.1
  refine ⟨rings, hrings, fun r hr => ?_, fun ring hring => ?_⟩
  · obtain ⟨ring, hring, h⟩ := exists_of_mapM hrings hr
    exact ⟨ring, hring, spec hr h⟩
  · obtain ⟨r, hr, h⟩ := exists_of_mem_mapM hrings hring
    exact ⟨r, hr, spec hr h⟩

/-- What the samples of a cylinder are made of: on the side a circle at every height, on the caps their
    centres, and the rings of the radii between none and the whole. -/
structure HasParts (radius height spacing : ℝ) (points : List (Vec3 ℝ)) (around : ℕ) (zs radii : List ℝ)
    (rings : List (List (Vec3 ℝ))) : Prop where
  around_pos : 0 < around
  around_ge : 2 * Real.pi * radius / spacing ≤ around
  upwards : IsSampled zs (-(height / 2)) (height / 2) spacing
  outwards : IsSampled radii 0 radius spacing
  exists_ring : ∀ r ∈ radii, r = 0 ∨ r = radius ∨ ∃ ring ∈ rings, IsCapRing (height / 2) spacing r ring
  exists_radius : ∀ ring ∈ rings, ∃ r ∈ radii, IsCapRing (height / 2) spacing r ring
  mem_iff : ∀ p, p ∈ points ↔ (∃ t ∈ (angles around : List ℝ), ∃ z ∈ zs, onCircle radius t z = p) ∨
    (p = ⟨0, 0, -(height / 2)⟩ ∨ p = ⟨0, 0, height / 2⟩) ∨ ∃ ring ∈ rings, p ∈ ring

theorem exists_parts (hr : 0 < radius) (hh : 0 < height) (hspacing : 0 < spacing) :
    ∃ points, surfacePoints radius height spacing = .ok points ∧
      ∃ around zs radii rings, HasParts radius height spacing points around zs radii rings := by
  have htop : @OfScientific.ofScientific ℝ Scalar.instOfScientific 5 true 1 * height = height / 2 := by
    rw [Exact.ofScientific_eq]
    push_cast
    ring
  obtain ⟨around, haround, height8, hcount⟩ := exists_atLeast_ge 8 (2 * Real.pi * radius / spacing)
  obtain ⟨m, hm, hm2, hmle⟩ := exists_count_ge (height / spacing)
  obtain ⟨k, hk, hk2, hkle⟩ := exists_count_ge (radius / spacing)
  have hzs : IsSampled (closed (-(height / 2)) (height / 2) m) (-(height / 2)) (height / 2) spacing := by
    refine isSampled_closed (by linarith) hspacing hm2 ?_
    rwa [show height / 2 - -(height / 2) = height by ring]
  have hradii : IsSampled (closed 0 radius k) 0 radius spacing :=
    isSampled_closed hr.le hspacing hk2 (by rwa [sub_zero])
  obtain ⟨rings, hrings, hring, hring'⟩ := exists_rings
    (fun r hr => (hradii.bounds r (mem_closed_of_inner hr)).1) hspacing (height / 2)
  have hrun : surfacePoints radius height spacing = .ok (((angles around).flatMap fun t =>
      (closed (-(height / 2)) (height / 2) m).map (onCircle radius t)) ++
        [⟨0, 0, -(height / 2)⟩, ⟨0, 0, height / 2⟩] ++ rings.flatten) := by
    simp only [surfacePoints, htop, Exact.zero_eq]
    refine bind_eq_ok.mpr ⟨_, quotient_eq hspacing.ne', bind_eq_ok.mpr ⟨around, haround, ?_⟩⟩
    refine bind_eq_ok.mpr ⟨_, quotient_eq hspacing.ne', bind_eq_ok.mpr ⟨m, hm, ?_⟩⟩
    refine bind_eq_ok.mpr ⟨_, quotient_eq hspacing.ne', bind_eq_ok.mpr ⟨k, hk, ?_⟩⟩
    exact bind_eq_ok.mpr ⟨rings, hrings, rfl⟩
  exact ⟨_, hrun, around, _, _, rings,
    { around_pos := by omega
      around_ge := hcount
      upwards := hzs
      outwards := hradii
      exists_ring := fun r hr => (mem_closed_cases hk2 hr).imp id (Or.imp id (hring r))
      exists_radius := fun ring h => (hring' ring h).imp fun r hr => ⟨mem_closed_of_inner hr.1, hr.2⟩
      mem_iff := fun p => by
        simp only [List.mem_append, List.mem_flatMap, List.mem_map, List.mem_pair, List.mem_flatten, or_assoc] }⟩

section Parts

variable {points : List (Vec3 ℝ)} {around : ℕ} {zs radii : List ℝ} {rings : List (List (Vec3 ℝ))}
  (h : HasParts radius height spacing points around zs radii rings)

include h

theorem HasParts.on_surface (hr : 0 < radius) (hh : 0 < height) :
    ∀ p ∈ points, signedDistance radius height p = 0 := by
  have hcap : ∀ {z : ℝ}, z = -(height / 2) ∨ z = height / 2 → |z| = height / 2 :=
    fun h => (abs_eq (half_pos hh).le).mpr h.symm
  intro p hp
  rw [signedDistance_eq_zero_iff]
  rcases (h.mem_iff p).mp hp with ⟨t, -, z, hz, rfl⟩ | hcenter | ⟨ring, hring, hp⟩
  · have hrho : rho (onCircle radius t z) = radius := rho_onCircle hr.le
    exact ⟨⟨hrho.le, abs_le.mpr (h.upwards.bounds z hz)⟩, .inl hrho⟩
  · have hrho : rho p = 0 := by
      rcases hcenter with rfl | rfl <;> simp [rho]
    have hz : p.z = -(height / 2) ∨ p.z = height / 2 := by
      rcases hcenter with rfl | rfl
      · exact .inl rfl
      · exact .inr rfl
    exact ⟨⟨hrho.trans_le hr.le, (hcap hz).le⟩, .inr (hcap hz)⟩
  · obtain ⟨r, hr', hcircle⟩ := h.exists_radius ring hring
    obtain ⟨hrho, hz⟩ := hcircle.on_caps p hp
    exact ⟨⟨hrho.trans_le (h.outwards.bounds r hr').2, (hcap hz).le⟩, .inr (hcap hz)⟩

/-- On the side, the angle and the height are off by half of the spacing each. -/
theorem HasParts.exists_near_side (hr : 0 < radius) (hspacing : 0 < spacing) (hside : rho p = radius)
    (hz : |p.z| ≤ height / 2) : ∃ q ∈ points, (p - q).norm ≤ spacing := by
  obtain ⟨angle, hangle⟩ := exists_eq_onCircle p
  rw [hside] at hangle
  obtain ⟨t, ht, hturn⟩ := exists_onCircle_near hr.le hspacing h.around_pos h.around_ge angle p.z
  obtain ⟨z, hz, hrise⟩ := h.upwards.near p.z (abs_le.mp hz).1 (abs_le.mp hz).2
  refine ⟨onCircle radius t z, (h.mem_iff _).mpr (.inl ⟨t, ht, z, hz, rfl⟩), ?_⟩
  rw [← norm_sub_onCircle_height radius t] at hrise
  rw [← hangle] at hturn
  linarith [Vec3.norm_sub_le p (onCircle radius t p.z) (onCircle radius t z)]

/-- On a cap, so are the radius and the angle. -/
theorem HasParts.exists_near_cap (hr : 0 < radius) (hh : 0 < height) (hspacing : 0 < spacing)
    (hrho : rho p ≤ radius) (hcap : |p.z| = height / 2) : ∃ q ∈ points, (p - q).norm ≤ spacing := by
  have hz : p.z = -(height / 2) ∨ p.z = height / 2 := ((abs_eq (half_pos hh).le).mp hcap).symm
  obtain ⟨angle, hangle⟩ := exists_eq_onCircle p
  obtain ⟨r, hr', hradius⟩ := h.outwards.near (rho p) (rho_nonneg p) hrho
  have hnear : ∃ q ∈ points, (onCircle r angle p.z - q).norm ≤ spacing / 2 := by
    rcases h.exists_ring r hr' with rfl | rfl | ⟨ring, hring, hcircle⟩
    · have hcenter : onCircle 0 angle p.z = ⟨0, 0, p.z⟩ := by simp [onCircle]
      refine ⟨⟨0, 0, p.z⟩, (h.mem_iff _).mpr (.inr (.inl ?_)), ?_⟩
      · exact hz.imp (fun h => by rw [h]) fun h => by rw [h]
      · rw [hcenter, Vec3.norm_sub_self]
        exact (half_pos hspacing).le
    · obtain ⟨t, ht, hturn⟩ := exists_onCircle_near hr.le hspacing h.around_pos h.around_ge angle p.z
      refine ⟨_, (h.mem_iff _).mpr (.inl ⟨t, ht, p.z, ?_, rfl⟩), hturn⟩
      exact hz.elim (fun hz => hz ▸ h.upwards.low) (fun hz => hz ▸ h.upwards.high)
    · obtain ⟨q, hq, hturn⟩ := hcircle.near angle p.z hz
      exact ⟨q, (h.mem_iff q).mpr (.inr (.inr ⟨ring, hring, hq⟩)), hturn⟩
  obtain ⟨q, hq, hturn⟩ := hnear
  have hmove : (p - onCircle r angle p.z).norm = |rho p - r| := by
    conv_lhs => rw [hangle]
    exact norm_sub_onCircle_radius _ _ _ _
  exact ⟨q, hq, by linarith [Vec3.norm_sub_le p (onCircle r angle p.z) q]⟩

end Parts

/-- The samples of a cylinder lie on its surface and cover it. -/
theorem exists_cover (hr : 0 < radius) (hh : 0 < height) (hspacing : 0 < spacing) :
    ∃ points, surfacePoints radius height spacing = .ok points ∧
      (∀ p ∈ points, signedDistance radius height p = 0) ∧
      ∀ p, signedDistance radius height p = 0 → ∃ q ∈ points, (p - q).norm ≤ spacing := by
  obtain ⟨points, hpoints, around, zs, radii, rings, hparts⟩ := exists_parts hr hh hspacing
  refine ⟨points, hpoints, hparts.on_surface hr hh, fun p hp => ?_⟩
  obtain ⟨⟨hrho, hz⟩, hside | hcap⟩ := signedDistance_eq_zero_iff.mp hp
  · exact hparts.exists_near_side hr hspacing hside hz
  · exact hparts.exists_near_cap hr hh hspacing hrho hcap

end Cylinder

/-! ## All shapes -/

namespace Shape

/-- A shape without a mesh that is not degenerate has positive measures. -/
theorem isPositive_of_isDegenerate {s : Shape ℝ} (hs : s.IsPrimitive) (h : s.isDegenerate = .ok false) :
    s.IsPositive := by
  obtain ⟨v, hv, hpos⟩ := map_eq_ok.mp h
  simp only [Exact.isFinite_eq, Bool.true_and, Bool.not_eq_false', Exact.lt_iff, Exact.zero_eq] at hpos
  cases s with
  | box extents =>
    obtain rfl := Except.ok.inj hv
    rw [Box.volume] at hpos
    split_ifs at hpos with hflat
    · exact absurd hpos (by simp)
    · simpa [IsPositive, Vec3.any, and_assoc] using hflat
  | sphere radius =>
    simp only [volume, Sphere.volume] at hv
    split_ifs at hv with hflat
    · obtain rfl := Except.ok.inj hv
      exact absurd hpos (by simp)
    · simpa [IsPositive] using hflat
  | cylinder radius height =>
    simp only [volume, Cylinder.volume] at hv
    split_ifs at hv with hflat
    · obtain rfl := Except.ok.inj hv
      exact absurd hpos (by simp)
    · simpa [IsPositive] using hflat
  | mesh m => exact hs.elim

/-- The samples of a box, a sphere or a cylinder that is not degenerate lie on its surface, for every
    spacing, and unless it is a sphere no point of the surface is farther than the spacing from all of
    them. -/
theorem samples_cover_surface {s : Shape ℝ} {spacing : ℝ} (hs : s.IsPrimitive) (hvolume : s.isDegenerate = .ok false)
    (hspacing : 0 < spacing) : ∃ points, s.surfacePoints spacing = .ok points ∧
      (∀ p ∈ points, s.signedDistances [p] = .ok [0]) ∧
      ((∀ radius, s ≠ .sphere radius) →
        ∀ p, s.signedDistances [p] = .ok [0] → ∃ q ∈ points, (p - q).norm ≤ spacing) := by
  have hpositive := isPositive_of_isDegenerate hs hvolume
  have single : ∀ {distance : ℝ}, (.ok [distance] : Except Fault (List ℝ)) = .ok [0] ↔ distance = 0 := by simp
  cases s with
  | box extents =>
    obtain ⟨points, hpoints, hsurface, hcover⟩ := Box.exists_cover hpositive hspacing
    exact ⟨points, hpoints, fun p hp => single.mpr (hsurface p hp), fun _ p hp => hcover p (single.mp hp)⟩
  | sphere radius =>
    obtain ⟨points, hpoints, hsurface⟩ := Sphere.exists_samples hpositive hspacing
    exact ⟨points, hpoints, fun p hp => single.mpr (hsurface p hp), fun h => absurd rfl (h radius)⟩
  | cylinder radius height =>
    obtain ⟨points, hpoints, hsurface, hcover⟩ := Cylinder.exists_cover hpositive.1 hpositive.2 hspacing
    exact ⟨points, hpoints, fun p hp => single.mpr (hsurface p hp), fun _ p hp => hcover p (single.mp hp)⟩
  | mesh m => exact hs.elim

/-- A cylinder of radius one and height two at a spacing of one half: a sample is near to a point of the
    edge between the side and a cap. -/
theorem samples_cover_surface_cylinder : (Shape.cylinder (1 : ℝ) 2).isDegenerate = .ok false ∧
    ∃ points, (Shape.cylinder (1 : ℝ) 2).surfacePoints (1 / 2) = .ok points ∧
      (∀ p ∈ points, (Shape.cylinder (1 : ℝ) 2).signedDistances [p] = .ok [0]) ∧
      ∃ q ∈ points, ((⟨0, 1, 1⟩ : Vec3 ℝ) - q).norm ≤ 1 / 2 := by
  have hvolume : (Shape.cylinder (1 : ℝ) 2).isDegenerate = .ok false := by
    have hpi : (0 : ℝ) < Scalar.pi := Real.pi_pos
    have hv : (Shape.cylinder (1 : ℝ) 2).volume = .ok (Scalar.pi * 2) := by
      have hmeasures : ¬((1 : ℝ) ≤ 0 ∨ (2 : ℝ) ≤ 0) := by norm_num
      simp [volume, Cylinder.volume, square_eq, Except.map, hmeasures]
    rw [isDegenerate, hv]
    simp [Except.map, hpi]
  obtain ⟨points, hpoints, hsurface, hcover⟩ :=
    samples_cover_surface (s := .cylinder (1 : ℝ) 2) trivial hvolume (show (0 : ℝ) < 1 / 2 by norm_num)
  refine ⟨hvolume, points, hpoints, hsurface, hcover (fun _ => nofun) _ ?_⟩
  have hedge : Cylinder.signedDistance (1 : ℝ) 2 ⟨0, 1, 1⟩ = 0 :=
    Cylinder.signedDistance_eq_zero_iff.mpr (by norm_num [Cylinder.rho])
  simp [signedDistances, hedge]

end Shape

end Clearance
