import Clearance.Proofs.Shape.Beyond
import Clearance.Proofs.Shape.Solid

/-!
# Signed distances

Boxes, spheres and cylinders of positive measures, in exact arithmetic, tell the true distance to
their surface, negative inside: the nearest points are on the surface, as far away as the distance
says, and no point of the surface is nearer, since distances change by no more than the points do.
Points that are too close to the centre or to the axis to have a direction of their own are the only
ones for which the nearest point is not exact.

* `Shape.IsSignedDistance`: what it is to tell the distance to a surface.
* `Box.isSignedDistance`, `Sphere.isSignedDistance`, `Cylinder.isSignedDistance`: the three shapes.
* `Shape.exists_isSignedDistance`: all of them, as the program takes them.
-/

namespace Clearance

/-! ## Distances to a surface -/

/-- A test for the points inside, a distance that is negative there, and nearest points belong to one
    surface. The points at distance zero are those of the surface; a nearest point is one of them, and it
    is as far away as the distance says, up to twice a tolerance. -/
structure Shape.IsSignedDistance (inside : Vec3 ℝ → Bool) (distance : Vec3 ℝ → ℝ)
    (nearest : Vec3 ℝ → Vec3 ℝ) : Prop where
  inside_iff : ∀ p, inside p = true ↔ distance p ≤ 0
  on_surface : ∀ p, distance (nearest p) = 0
  attained : ∀ p, |(p - nearest p).norm - (|distance p|)| ≤ 2 / 10 ^ 12
  lipschitz : ∀ p q, |distance p - distance q| ≤ (p - q).norm

/-- No point of the surface is nearer than the distance says. -/
theorem Shape.IsSignedDistance.abs_le_norm_sub {inside : Vec3 ℝ → Bool} {distance : Vec3 ℝ → ℝ}
    {nearest : Vec3 ℝ → Vec3 ℝ} (h : Shape.IsSignedDistance inside distance nearest) {p q : Vec3 ℝ}
    (hq : distance q = 0) : |distance p| ≤ (p - q).norm := by
  have hlipschitz := h.lipschitz p q
  rwa [hq, sub_zero] at hlipschitz

namespace Vec3

/-- What grows by no more than the points differ changes by no more. -/
theorem abs_sub_le_of_le_add {f : Vec3 ℝ → ℝ} (h : ∀ p q, f q ≤ f p + (q - p).norm) (p q : Vec3 ℝ) :
    |f p - f q| ≤ (p - q).norm := by
  have hpq := h p q
  have hqp := h q p
  rw [norm_sub_comm q p] at hpq
  rw [abs_le]
  exact ⟨by linarith, by linarith⟩

theorem norm_onFirst (t : ℝ) : (⟨t, 0, 0⟩ : Vec3 ℝ).norm = |t| := by
  rw [norm_eq, normSq, ← Real.sqrt_sq_eq_abs]
  congr 1
  ring

theorem norm_onSecond (t : ℝ) : (⟨0, t, 0⟩ : Vec3 ℝ).norm = |t| := by
  rw [norm_eq, normSq, ← Real.sqrt_sq_eq_abs]
  congr 1
  ring

theorem norm_congr {u v : Vec3 ℝ} (h : u.normSq = v.normSq) : u.norm = v.norm := by rw [norm_eq, norm_eq, h]

theorem norm_scale (a : ℝ) (v : Vec3 ℝ) : (v.scale a).norm = |a| * v.norm := by
  rw [norm_eq, norm_eq, ← Real.sqrt_sq_eq_abs, ← Real.sqrt_mul (sq_nonneg a)]
  congr 1
  simp only [normSq, scale]
  ring

theorem abs_norm_sub_norm_le (u v : Vec3 ℝ) : |u.norm - v.norm| ≤ (u - v).norm := by
  have huv := norm_le_add u v
  have hvu := norm_le_add v u
  rw [norm_sub_comm v u] at hvu
  rw [abs_le]
  exact ⟨by linarith, by linarith⟩

theorem norm_sub_le_add (u v : Vec3 ℝ) : (u - v).norm ≤ u.norm + v.norm := by
  have h := norm_le_add (u - v) u
  have hneg : (u - v - u).norm = v.norm := norm_congr (by simp [normSq])
  linarith

theorem norm_eq_abs {v : Vec3 ℝ} {d : ℝ} (h : v.normSq = d ^ 2) : v.norm = |d| := by
  rw [norm_eq, h, Real.sqrt_sq_eq_abs]

end Vec3

/-! ## Boxes -/

namespace Box

variable {extents p q : Vec3 ℝ}

/-- By how much the coordinates of a point are beyond the faces. -/
noncomputable def excess (extents p : Vec3 ℝ) : Vec3 ℝ :=
  ⟨|p.x| - extents.x / 2, |p.y| - extents.y / 2, |p.z| - extents.z / 2⟩

theorem signedDistance_eq_beyond (extents p : Vec3 ℝ) : signedDistance extents p = (excess extents p).beyond := by
  simp [signedDistance, half_eq, Vec3.abs, Vec3.map, Vec3.maxCoord, Vec3.beyond, Vec3.positivePart, Vec3.max_eq,
    Vec3.replicate, excess]

theorem signedDistance_le_add (extents p q : Vec3 ℝ) :
    signedDistance extents q ≤ signedDistance extents p + (q - p).norm := by
  have hnorm : (⟨|q.x - p.x|, |q.y - p.y|, |q.z - p.z|⟩ : Vec3 ℝ).norm = (q - p).norm :=
    Vec3.norm_congr (by simp [Vec3.normSq])
  rw [signedDistance_eq_beyond, signedDistance_eq_beyond, ← hnorm]
  refine Vec3.beyond_le_add ?_ ?_ ?_
  · have := abs_sub_abs_le_abs_sub q.x p.x
    simp only [excess]
    linarith
  · have := abs_sub_abs_le_abs_sub q.y p.y
    simp only [excess]
    linarith
  · have := abs_sub_abs_le_abs_sub q.z p.z
    simp only [excess]
    linarith

/-- The face coordinate on the side of a coordinate is as far away as the face. -/
theorem faceCoord_spec {x h : ℝ} (hh : 0 ≤ h) : |faceCoord x h| = h ∧ |x - faceCoord x h| = |h - (|x|)| := by
  rcases le_or_gt 0 x with hx | hx
  · simp [faceCoord, hx, abs_of_nonneg hh, abs_of_nonneg hx, abs_sub_comm]
  · have hle : ¬0 ≤ x := not_le.mpr hx
    have hsum : x - -h = h - -x := by ring
    simp [faceCoord, hle, abs_of_nonneg hh, abs_of_neg hx, hsum]

/-- A coordinate that is clipped moves by as much as it is beyond the face, and then it is on it. -/
theorem clip_spec {x h : ℝ} (hh : 0 ≤ h) :
    |min (max x (-h)) h| = min |x| h ∧ |x - min (max x (-h)) h| = max (|x| - h) 0 := by
  rcases le_or_gt |x| h with hx | hx
  · obtain ⟨hlow, hhigh⟩ := abs_le.mp hx
    rw [max_eq_left hlow, min_eq_left hhigh, min_eq_left hx, sub_self, abs_zero, max_eq_right (by linarith)]
    exact ⟨rfl, rfl⟩
  · rw [min_eq_right hx.le]
    rcases le_or_gt 0 x with hsign | hsign
    · rw [abs_of_nonneg hsign] at hx ⊢
      rw [max_eq_left (by linarith : -h ≤ x), min_eq_right hx.le, abs_of_nonneg hh, abs_of_pos (sub_pos.mpr hx),
        max_eq_left (sub_nonneg.mpr hx.le)]
      exact ⟨rfl, rfl⟩
    · rw [abs_of_neg hsign] at hx ⊢
      rw [max_eq_right (by linarith : x ≤ -h), min_eq_left (by linarith : -h ≤ h), abs_neg, abs_of_nonneg hh,
        abs_of_neg (by linarith : x - -h < 0), max_eq_left (sub_nonneg.mpr hx.le)]
      exact ⟨rfl, by ring⟩

theorem comesFirst_iff {gap : ℝ} {others : List ℝ} :
    comesFirst gap others = true ↔ ∀ other ∈ others, gap ≤ other := by
  simp [comesFirst]

/-- Inside, the nearest point is on the face with the least gap. -/
theorem closestPoint_inside (hp : contains extents p = true) :
    let e := excess extents p
    (e.y ≤ e.x ∧ e.z ≤ e.x ∧ closestPoint extents p = ⟨faceCoord p.x (extents.x / 2), p.y, p.z⟩) ∨
      (e.x ≤ e.y ∧ e.z ≤ e.y ∧ closestPoint extents p = ⟨p.x, faceCoord p.y (extents.y / 2), p.z⟩) ∨
      (e.x ≤ e.z ∧ e.y ≤ e.z ∧ closestPoint extents p = ⟨p.x, p.y, faceCoord p.z (extents.z / 2)⟩) := by
  intro e
  have hclosest : closestPoint extents p =
      if comesFirst (extents.x / 2 - |p.x|) [extents.y / 2 - |p.y|, extents.z / 2 - |p.z|] then
        ⟨faceCoord p.x (extents.x / 2), p.y, p.z⟩
      else if comesFirst (extents.y / 2 - |p.y|) [extents.z / 2 - |p.z|] then
        ⟨p.x, faceCoord p.y (extents.y / 2), p.z⟩
      else ⟨p.x, p.y, faceCoord p.z (extents.z / 2)⟩ := by
    simp [closestPoint, hp, half_eq, Vec3.abs, Vec3.map]
  rw [hclosest]
  simp only [e, excess]
  by_cases hfirst : comesFirst (extents.x / 2 - |p.x|) [extents.y / 2 - |p.y|, extents.z / 2 - |p.z|] = true
  · rw [if_pos hfirst]
    rw [comesFirst_iff] at hfirst
    have hy := hfirst _ List.mem_cons_self
    have hz := hfirst _ (List.mem_cons_of_mem _ List.mem_cons_self)
    exact .inl ⟨by linarith, by linarith, rfl⟩
  · rw [if_neg hfirst]
    rw [comesFirst_iff, List.forall_mem_cons, List.forall_mem_singleton] at hfirst
    by_cases hsecond : comesFirst (extents.y / 2 - |p.y|) [extents.z / 2 - |p.z|] = true
    · rw [if_pos hsecond]
      rw [comesFirst_iff, List.forall_mem_singleton] at hsecond
      refine .inr (.inl ⟨?_, by linarith, rfl⟩)
      by_contra hn
      exact hfirst ⟨by linarith, by linarith⟩
    · rw [if_neg hsecond]
      rw [comesFirst_iff, List.forall_mem_singleton] at hsecond
      refine .inr (.inr ⟨?_, by linarith, rfl⟩)
      by_contra hn
      exact hfirst ⟨by linarith, by linarith⟩

/-- Outside, the nearest point is the one with clipped coordinates. -/
theorem closestPoint_outside (hp : ¬contains extents p = true) :
    closestPoint extents p = ⟨min (max p.x (-(extents.x / 2))) (extents.x / 2),
      min (max p.y (-(extents.y / 2))) (extents.y / 2), min (max p.z (-(extents.z / 2))) (extents.z / 2)⟩ := by
  rw [closestPoint, if_neg hp]
  simp [Vec3.clip, Vec3.min_eq, Vec3.max_eq, half_eq]

/-- A point whose coordinates are beyond no face, and one of them on its face, is on the surface. -/
theorem signedDistance_eq_zero (hx : |q.x| ≤ extents.x / 2) (hy : |q.y| ≤ extents.y / 2)
    (hz : |q.z| ≤ extents.z / 2) (h : |q.x| = extents.x / 2 ∨ |q.y| = extents.y / 2 ∨ |q.z| = extents.z / 2) :
    signedDistance extents q = 0 := by
  rw [signedDistance_eq_beyond]
  exact Vec3.beyond_eq_zero (sub_nonpos.mpr hx) (sub_nonpos.mpr hy) (sub_nonpos.mpr hz)
    (h.imp sub_eq_zero_of_eq (Or.imp sub_eq_zero_of_eq sub_eq_zero_of_eq))

section Nearest

variable (hextents : 0 < extents.x ∧ 0 < extents.y ∧ 0 < extents.z)

include hextents

/-- Inside, the nearest point is on a face, and as far away as that. -/
theorem closestPoint_of_contains (hp : contains extents p = true) :
    signedDistance extents (closestPoint extents p) = 0 ∧
      (p - closestPoint extents p).norm = |signedDistance extents p| := by
  obtain ⟨hx, hy, hz⟩ := contains_iff.mp hp
  have hdistance : signedDistance extents p =
      max (max (excess extents p).x (excess extents p).y) (excess extents p).z := by
    rw [signedDistance_eq_beyond]
    exact Vec3.beyond_of_nonpos (sub_nonpos.mpr hx) (sub_nonpos.mpr hy) (sub_nonpos.mpr hz)
  rw [hdistance]
  rcases closestPoint_inside hp with ⟨h1, h2, heq⟩ | ⟨h1, h2, heq⟩ | ⟨h1, h2, heq⟩
  · obtain ⟨hface, hgap⟩ := faceCoord_spec (x := p.x) (half_pos hextents.1).le
    rw [heq, max_eq_left h1, max_eq_left h2, Vec3.sub_def, sub_self, sub_self, Vec3.norm_onFirst, hgap]
    exact ⟨signedDistance_eq_zero hface.le hy hz (.inl hface), abs_sub_comm _ _⟩
  · obtain ⟨hface, hgap⟩ := faceCoord_spec (x := p.y) (half_pos hextents.2.1).le
    rw [heq, max_eq_right h1, max_eq_left h2, Vec3.sub_def, sub_self, sub_self, Vec3.norm_onSecond, hgap]
    exact ⟨signedDistance_eq_zero hx hface.le hz (.inr (.inl hface)), abs_sub_comm _ _⟩
  · obtain ⟨hface, hgap⟩ := faceCoord_spec (x := p.z) (half_pos hextents.2.2).le
    rw [heq, max_eq_right (max_le h1 h2), Vec3.sub_def, sub_self, sub_self, Vec3.norm_onAxis, hgap]
    exact ⟨signedDistance_eq_zero hx hy hface.le (.inr (.inr hface)), abs_sub_comm _ _⟩

/-- Outside, the nearest point is on a face, and every coordinate is off by as much as it is beyond. -/
theorem closestPoint_of_not_contains (hp : ¬contains extents p = true) :
    signedDistance extents (closestPoint extents p) = 0 ∧
      (p - closestPoint extents p).norm = |signedDistance extents p| := by
  obtain ⟨hx, hx'⟩ := clip_spec (x := p.x) (half_pos hextents.1).le
  obtain ⟨hy, hy'⟩ := clip_spec (x := p.y) (half_pos hextents.2.1).le
  obtain ⟨hz, hz'⟩ := clip_spec (x := p.z) (half_pos hextents.2.2).le
  have hbeyond : extents.x / 2 ≤ |p.x| ∨ extents.y / 2 ≤ |p.y| ∨ extents.z / 2 ≤ |p.z| := by
    by_contra hn
    simp only [not_or, not_le] at hn
    exact hp (contains_iff.mpr ⟨hn.1.le, hn.2.1.le, hn.2.2.le⟩)
  rw [closestPoint_outside hp]
  constructor
  · refine signedDistance_eq_zero (hx.trans_le (min_le_right _ _)) (hy.trans_le (min_le_right _ _))
      (hz.trans_le (min_le_right _ _)) ?_
    exact hbeyond.imp (fun h => hx.trans (min_eq_right h))
      (Or.imp (fun h => hy.trans (min_eq_right h)) fun h => hz.trans (min_eq_right h))
  · have houtside : signedDistance extents p = (excess extents p).positivePart.norm := by
      rw [signedDistance_eq_beyond]
      refine Vec3.beyond_of_nonneg (Vec3.nonneg_max_iff.mpr ?_)
      exact hbeyond.imp sub_nonneg.mpr (Or.imp sub_nonneg.mpr sub_nonneg.mpr)
    rw [houtside, abs_of_nonneg (Vec3.norm_nonneg _)]
    refine Vec3.norm_congr ?_
    simp only [Vec3.normSq, Vec3.sub_def, Vec3.positivePart, excess, ← hx', ← hy', ← hz', sq_abs]

/-- A box tells the distance to its surface, and its nearest points are exact. -/
theorem isSignedDistance :
    Shape.IsSignedDistance (contains extents) (signedDistance extents) (closestPoint extents) := by
  have hnearest : ∀ p, signedDistance extents (closestPoint extents p) = 0 ∧
      (p - closestPoint extents p).norm = |signedDistance extents p| := by
    intro p
    by_cases hp : contains extents p = true
    · exact closestPoint_of_contains hextents hp
    · exact closestPoint_of_not_contains hextents hp
  refine ⟨fun p => ?_, fun p => (hnearest p).1, fun p => ?_, ?_⟩
  · rw [contains_iff, signedDistance_eq_beyond, Vec3.beyond_nonpos_iff]
    simp only [excess, sub_nonpos]
  · rw [(hnearest p).2, sub_self, abs_zero]
    positivity
  · exact Vec3.abs_sub_le_of_le_add (signedDistance_le_add extents)

end Nearest

end Box

/-! ## Points without a direction -/

/-- Where the way from a centre to a point is left for another, because the point is too close to have a
    direction, a target at a distance `r'` is off by at most twice the distance of the point. -/
theorem abs_sub_le_of_close {r r' d t : ℝ} (hlow : |r - r'| ≤ d) (hhigh : d ≤ r + r') (hr : r ≤ t) :
    |d - (|r - r'|)| ≤ 2 * t := by
  have h := neg_abs_le (r - r')
  rw [abs_of_nonneg (by linarith)]
  linarith

/-! ## Spheres -/

namespace Sphere

variable {radius : ℝ} {p : Vec3 ℝ}

/-- A point away from the centre goes straight outward or inward. -/
theorem closestPoint_of_far (h : directionTolerance < p.norm) :
    closestPoint radius p = p.scale (radius / p.norm) := by
  simp only [closestPoint, Exact.lt_iff.mpr h, if_true, Vec3.divide, Vec3.scale, Vec3.mk.injEq]
  refine ⟨?_, ?_, ?_⟩ <;> ring

theorem closestPoint_of_close (h : ¬directionTolerance < p.norm) : closestPoint radius p = ⟨radius, 0, 0⟩ := by
  have hlt : ¬Scalar.lt directionTolerance p.norm = true := fun h' => h (Exact.lt_iff.mp h')
  simp only [closestPoint, if_neg hlt]
  simp

/-- The nearest point is on the sphere, and as far away as the distance says, up to the tolerance. -/
theorem closestPoint_spec (hr : 0 < radius) (p : Vec3 ℝ) : (closestPoint radius p).norm = radius ∧
    |(p - closestPoint radius p).norm - (|p.norm - radius|)| ≤ 2 / 10 ^ 12 := by
  by_cases h : directionTolerance < p.norm
  · have hn : 0 < p.norm := lt_trans (by rw [directionTolerance, Exact.trillionth_eq]; positivity) h
    have hgap : p - p.scale (radius / p.norm) = p.scale (1 - radius / p.norm) := by
      simp only [Vec3.sub_def, Vec3.scale, Vec3.mk.injEq]
      refine ⟨?_, ?_, ?_⟩ <;> ring
    have hfactor : |1 - radius / p.norm| * p.norm = |p.norm - radius| := by
      rw [← abs_of_pos hn, ← abs_mul, abs_of_pos hn, sub_mul, one_mul, div_mul_cancel₀ _ hn.ne']
    rw [closestPoint_of_far h, hgap, Vec3.norm_scale, Vec3.norm_scale, hfactor, sub_self, abs_zero,
      abs_of_pos (div_pos hr hn), div_mul_cancel₀ _ hn.ne']
    exact ⟨rfl, by positivity⟩
  · have hnorm : (⟨radius, 0, 0⟩ : Vec3 ℝ).norm = radius := by rw [Vec3.norm_onFirst, abs_of_pos hr]
    have hlow := Vec3.abs_norm_sub_norm_le p ⟨radius, 0, 0⟩
    have hhigh := Vec3.norm_sub_le_add p ⟨radius, 0, 0⟩
    rw [hnorm] at hlow hhigh
    rw [closestPoint_of_close h]
    have hclose : p.norm ≤ 1 / 10 ^ 12 := Exact.trillionth_eq ▸ not_lt.mp h
    exact ⟨hnorm, (abs_sub_le_of_close hlow hhigh hclose).trans_eq (by ring)⟩

/-- A sphere tells the distance to its surface. -/
theorem isSignedDistance (hr : 0 < radius) {inside : Vec3 ℝ → Bool}
    (hinside : ∀ p, inside p = true ↔ signedDistance radius p ≤ 0) :
    Shape.IsSignedDistance inside (signedDistance radius) (closestPoint radius) where
  inside_iff := hinside
  on_surface p := sub_eq_zero_of_eq (closestPoint_spec hr p).1
  attained p := (closestPoint_spec hr p).2
  lipschitz p q := by
    rw [signedDistance, signedDistance, sub_sub_sub_cancel_right]
    exact Vec3.abs_norm_sub_norm_le p q

end Sphere

/-! ## Cylinders -/

namespace Cylinder

variable {radius height : ℝ} {p q : Vec3 ℝ}

theorem rho_sq (p : Vec3 ℝ) : rho p ^ 2 = p.x ^ 2 + p.y ^ 2 := by
  rw [rho_eq, Vec3.norm_sq, Vec3.normSq]
  ring

/-- A vector is as long as its parts off and along the axis. -/
theorem norm_eq_rho (v : Vec3 ℝ) : v.norm = (⟨rho v, v.z, 0⟩ : Vec3 ℝ).norm :=
  Vec3.norm_congr (by simp only [Vec3.normSq, rho_sq]; ring)

theorem rho_sub (p q : Vec3 ℝ) : rho (p - q) = ((⟨p.x, p.y, 0⟩ : Vec3 ℝ) - ⟨q.x, q.y, 0⟩).norm := by
  rw [rho_eq]
  simp

theorem abs_rho_sub_rho_le (p q : Vec3 ℝ) : |rho p - rho q| ≤ rho (p - q) := by
  rw [rho_eq p, rho_eq q, rho_sub]
  exact Vec3.abs_norm_sub_norm_le _ _

theorem rho_sub_le_add (p q : Vec3 ℝ) : rho (p - q) ≤ rho p + rho q := by
  rw [rho_eq p, rho_eq q, rho_sub]
  exact Vec3.norm_sub_le_add _ _

/-- How far a point is beyond side and caps. A third excess that is negative enough does not count. -/
theorem signedDistance_eq_beyond {t : ℝ} (ht : t ≤ 0) (hside : t ≤ rho p - radius) :
    signedDistance radius height p = Vec3.beyond ⟨rho p - radius, |p.z| - height / 2, t⟩ := by
  have hnorm : (⟨max (rho p - radius) 0, max (|p.z| - height / 2) 0, max t 0⟩ : Vec3 ℝ).norm =
      √(max (rho p - radius) 0 * max (rho p - radius) 0 +
        max (|p.z| - height / 2) 0 * max (|p.z| - height / 2) 0) := by
    rw [Vec3.norm_eq, Vec3.normSq, max_eq_right ht]
    congr 1
    ring
  rw [signedDistance_eq, ← hnorm, Vec3.beyond, Vec3.positivePart, max_eq_left (le_max_of_le_left hside)]

theorem signedDistance_le_add (radius height : ℝ) (p q : Vec3 ℝ) :
    signedDistance radius height q ≤ signedDistance radius height p + (q - p).norm := by
  let t := min (min (rho p - radius) (rho q - radius)) 0
  have ht : t ≤ 0 := min_le_right _ _
  have hp : t ≤ rho p - radius := (min_le_left _ _).trans (min_le_left _ _)
  have hq : t ≤ rho q - radius := (min_le_left _ _).trans (min_le_right _ _)
  have hnorm : (⟨rho (q - p), |q.z - p.z|, 0⟩ : Vec3 ℝ).norm = (q - p).norm := by
    rw [norm_eq_rho (q - p)]
    exact Vec3.norm_congr (by simp [Vec3.normSq])
  rw [signedDistance_eq_beyond ht hp, signedDistance_eq_beyond ht hq, ← hnorm]
  refine Vec3.beyond_le_add ?_ ?_ (add_zero t).ge
  · have := (le_abs_self _).trans (abs_rho_sub_rho_le q p)
    dsimp only
    linarith
  · have := abs_sub_abs_le_abs_sub q.z p.z
    dsimp only
    linarith

theorem signedDistance_eq_zero (hr : rho q ≤ radius) (hz : |q.z| ≤ height / 2)
    (h : rho q = radius ∨ |q.z| = height / 2) : signedDistance radius height q = 0 := by
  rw [signedDistance_eq_beyond (sub_nonpos.mpr hr) le_rfl]
  refine Vec3.beyond_eq_zero (sub_nonpos.mpr hr) (sub_nonpos.mpr hz) (sub_nonpos.mpr hr) ?_
  exact h.imp sub_eq_zero_of_eq fun h => .inl (sub_eq_zero_of_eq h)

/-- Inside, where the distance to the side is that to the caps or less. -/
theorem signedDistance_of_inside (hr : rho p ≤ radius) (hz : |p.z| ≤ height / 2) :
    signedDistance radius height p = max (rho p - radius) (|p.z| - height / 2) := by
  rw [signedDistance_eq, max_eq_right (sub_nonpos.mpr hr), max_eq_right (sub_nonpos.mpr hz),
    min_eq_left (max_le (sub_nonpos.mpr hr) (sub_nonpos.mpr hz))]
  simp

theorem signedDistance_sq_of_outside (h : ¬(rho p ≤ radius ∧ |p.z| ≤ height / 2)) :
    signedDistance radius height p ^ 2 = max (rho p - radius) 0 ^ 2 + max (|p.z| - height / 2) 0 ^ 2 := by
  have hmax : 0 ≤ max (rho p - radius) (|p.z| - height / 2) := by
    rw [le_max_iff]
    rcases not_and_or.mp h with h | h
    · exact .inl (by linarith)
    · exact .inr (by linarith)
  rw [signedDistance_eq, min_eq_right hmax, add_zero, Real.sq_sqrt (by positivity)]
  ring

/-- A vector of the plane of a point and the axis: at a distance from the axis, in the direction of the
    point if it has one, and at a height. -/
noncomputable def meridian (p : Vec3 ℝ) (r z : ℝ) : Vec3 ℝ :=
  if directionTolerance < rho p then ⟨p.x / rho p * r, p.y / rho p * r, z⟩ else ⟨r, 0, z⟩

theorem closestPoint_eq (radius height : ℝ) (p : Vec3 ℝ) : closestPoint radius height p = meridian p
    (if (rho p ≤ radius ∧ |p.z| ≤ height / 2) ∧ radius - rho p < height / 2 - |p.z| then radius
      else min (rho p) radius)
    (if (rho p ≤ radius ∧ |p.z| ≤ height / 2) ∧ ¬radius - rho p < height / 2 - |p.z| then
      Box.faceCoord p.z (height / 2) else min (max p.z (-(height / 2))) (height / 2)) := by
  have hhalf : (5 : ℝ) / 10 * height = height / 2 := by ring
  by_cases h : directionTolerance < rho p
  · simp [closestPoint, meridian, Scalar.clip, Box.faceCoord, Bool.eq_false_iff, hhalf, h]
  · simp [closestPoint, meridian, Scalar.clip, Box.faceCoord, Bool.eq_false_iff, hhalf, h]

/-- The nearest point has a distance from the axis and a height that are those of a point of the surface.
    These are as far from the distance and the height of the point as the distance says. -/
theorem exists_closestPoint_eq (hr : 0 < radius) (hh : 0 < height) (p : Vec3 ℝ) : ∃ r z,
    closestPoint radius height p = meridian p r z ∧ 0 ≤ r ∧ r ≤ radius ∧ |z| ≤ height / 2 ∧
    (r = radius ∨ |z| = height / 2) ∧
    (rho p - r) ^ 2 + (p.z - z) ^ 2 = signedDistance radius height p ^ 2 := by
  have htop : 0 ≤ height / 2 := (half_pos hh).le
  have hmin : 0 ≤ min (rho p) radius := le_min (rho_nonneg p) hr.le
  obtain ⟨hclip, hclip'⟩ := Box.clip_spec (x := p.z) htop
  refine ⟨_, _, closestPoint_eq radius height p, ?_⟩
  by_cases hin : rho p ≤ radius ∧ |p.z| ≤ height / 2
  · rw [signedDistance_of_inside hin.1 hin.2]
    by_cases hside : radius - rho p < height / 2 - |p.z|
    · -- Clipping leaves the height of a point that is inside.
      have hle : |p.z| - height / 2 ≤ rho p - radius := by linarith
      rw [if_pos ⟨hin, hside⟩, if_neg fun h => h.2 hside, max_eq_left hle]
      have hheight : (p.z - min (max p.z (-(height / 2))) (height / 2)) ^ 2 = 0 := by
        rw [← sq_abs, hclip', max_eq_right (sub_nonpos.mpr hin.2), sq, zero_mul]
      exact ⟨hr.le, le_rfl, hclip.trans_le (min_le_right _ _), .inl rfl, by rw [hheight, add_zero]⟩
    · have hle : rho p - radius ≤ |p.z| - height / 2 := by linarith
      obtain ⟨hface, hface'⟩ := Box.faceCoord_spec (x := p.z) htop
      rw [if_neg fun h => hside h.2, if_pos ⟨hin, hside⟩, min_eq_left hin.1, max_eq_right hle]
      refine ⟨rho_nonneg p, hin.1, hface.le, .inr hface, ?_⟩
      rw [← sq_abs (p.z - _), hface', sq_abs]
      ring
  · rw [if_neg fun h => hin h.1, if_neg fun h => hin h.1, signedDistance_sq_of_outside hin]
    refine ⟨hmin, min_le_right _ _, hclip.trans_le (min_le_right _ _), ?_, ?_⟩
    · rcases not_and_or.mp hin with h | h
      · exact .inl (min_eq_right (not_le.mp h).le)
      · exact .inr (hclip.trans (min_eq_right (not_le.mp h).le))
    · have hdistance : rho p - min (rho p) radius = max (rho p - radius) 0 := by
        rcases le_total (rho p) radius with h | h
        · rw [min_eq_left h, max_eq_right (sub_nonpos.mpr h), sub_self]
        · rw [min_eq_right h, max_eq_left (sub_nonneg.mpr h)]
      rw [hdistance, ← sq_abs (p.z - _), hclip']

/-- Such a vector keeps its distance from the axis, and off the axis it is as far from the point as it
    should be, up to the tolerance. -/
theorem rho_meridian {r : ℝ} (hr : 0 ≤ r) (p : Vec3 ℝ) (z : ℝ) :
    rho (meridian p r z) = r ∧ |rho (p - meridian p r z) - (|rho p - r|)| ≤ 2 / 10 ^ 12 := by
  have hsq : ∀ {v : Vec3 ℝ} {a : ℝ}, v.x ^ 2 + v.y ^ 2 = a ^ 2 → rho v = |a| := by
    intro v a h
    rw [← abs_of_nonneg (rho_nonneg v), ← sq_eq_sq_iff_abs_eq_abs, rho_sq, h]
  by_cases h : directionTolerance < rho p
  · have hpos : 0 < rho p := lt_trans (by rw [directionTolerance, Exact.trillionth_eq]; positivity) h
    rw [meridian, if_pos h]
    have hp := rho_sq p
    have hrho : rho ⟨p.x / rho p * r, p.y / rho p * r, z⟩ = |r| := by
      refine hsq ?_
      field_simp
      linear_combination (-r ^ 2) * hp
    have hgap : rho (p - ⟨p.x / rho p * r, p.y / rho p * r, z⟩) = |rho p - r| := by
      refine hsq ?_
      simp only [Vec3.sub_def]
      field_simp
      linear_combination (-(rho p - r) ^ 2) * hp
    rw [hrho, hgap, sub_self, abs_zero, abs_of_nonneg hr]
    exact ⟨rfl, by positivity⟩
  · rw [meridian, if_neg h]
    have hrho : rho ⟨r, 0, z⟩ = r := (hsq (by ring)).trans (abs_of_nonneg hr)
    have hlow := abs_rho_sub_rho_le p ⟨r, 0, z⟩
    have hhigh := rho_sub_le_add p ⟨r, 0, z⟩
    rw [hrho] at hlow hhigh
    have hclose : rho p ≤ 1 / 10 ^ 12 := Exact.trillionth_eq ▸ not_lt.mp h
    exact ⟨hrho, (abs_sub_le_of_close hlow hhigh hclose).trans_eq (by ring)⟩

/-- The nearest point is on the surface, and as far away as the distance says, up to the tolerance. -/
theorem closestPoint_spec (hr : 0 < radius) (hh : 0 < height) (p : Vec3 ℝ) :
    signedDistance radius height (closestPoint radius height p) = 0 ∧
      |(p - closestPoint radius height p).norm - (|signedDistance radius height p|)| ≤ 2 / 10 ^ 12 := by
  obtain ⟨r, z, hclosest, hr0, hr1, hz, hface, hdistance⟩ := exists_closestPoint_eq hr hh p
  obtain ⟨hrho, hoff⟩ := rho_meridian hr0 p z
  have hheight : (meridian p r z).z = z := by
    rw [meridian]
    split <;> rfl
  rw [hclosest]
  constructor
  · refine signedDistance_eq_zero (hrho.trans_le hr1) ?_ ?_
    · rwa [hheight]
    · rwa [hrho, hheight]
  · have htrue : (⟨|rho p - r|, p.z - z, 0⟩ : Vec3 ℝ).norm = |signedDistance radius height p| := by
      refine Vec3.norm_eq_abs ?_
      rw [← hdistance, Vec3.normSq, sq_abs]
      ring
    -- Along the axis nothing is lost, so the tolerance counts once.
    have hgap : (⟨rho (p - meridian p r z), (p - meridian p r z).z, 0⟩ - ⟨|rho p - r|, p.z - z, 0⟩ : Vec3 ℝ) =
        ⟨rho (p - meridian p r z) - (|rho p - r|), 0, 0⟩ := by
      simp [hheight]
    calc |(p - meridian p r z).norm - (|signedDistance radius height p|)|
        ≤ (⟨rho (p - meridian p r z), (p - meridian p r z).z, 0⟩ - ⟨|rho p - r|, p.z - z, 0⟩ : Vec3 ℝ).norm := by
          rw [norm_eq_rho (p - meridian p r z), ← htrue]
          exact Vec3.abs_norm_sub_norm_le _ _
      _ = |rho (p - meridian p r z) - (|rho p - r|)| := by rw [hgap, Vec3.norm_onFirst]
      _ ≤ 2 / 10 ^ 12 := hoff

/-- A cylinder tells the distance to its surface. -/
theorem isSignedDistance (hr : 0 < radius) (hh : 0 < height) {inside : Vec3 ℝ → Bool}
    (hinside : ∀ p, inside p = true ↔ signedDistance radius height p ≤ 0) :
    Shape.IsSignedDistance inside (signedDistance radius height) (closestPoint radius height) where
  inside_iff := hinside
  on_surface p := (closestPoint_spec hr hh p).1
  attained p := (closestPoint_spec hr hh p).2
  lipschitz := Vec3.abs_sub_le_of_le_add (signedDistance_le_add radius height)

end Cylinder

/-! ## All shapes -/

namespace Shape

/-- A box, a sphere or a cylinder all of whose measures are positive. -/
def IsPositive : Shape ℝ → Prop
  | .box extents => 0 < extents.x ∧ 0 < extents.y ∧ 0 < extents.z
  | .sphere radius => 0 < radius
  | .cylinder radius height => 0 < radius ∧ 0 < height
  | .mesh _ => False

/-- A shape of positive measures without a mesh tells the true distance of points to its surface: its
    test, its distances and its nearest points are those of one surface, and no point of the surface is
    nearer to a point than its distance says. -/
theorem exists_isSignedDistance {s : Shape ℝ} (hs : s.IsPositive) : ∃ inside distance nearest,
    s.inside = .ok inside ∧ (∀ points, s.signedDistances points = .ok (points.map distance)) ∧
      (∀ points, s.closestPoints points = .ok (points.map nearest)) ∧
      IsSignedDistance inside distance nearest ∧
      ∀ p q, distance q = 0 → |distance p| ≤ (p - q).norm := by
  have hall : ∃ inside distance nearest, s.inside = .ok inside ∧
      (∀ points, s.signedDistances points = .ok (points.map distance)) ∧
      (∀ points, s.closestPoints points = .ok (points.map nearest)) ∧
      IsSignedDistance inside distance nearest := by
    cases s with
    | box extents => exact ⟨_, _, _, rfl, fun _ => rfl, fun _ => rfl, Box.isSignedDistance hs⟩
    | sphere radius =>
      refine ⟨_, _, _, rfl, fun _ => rfl, fun _ => rfl, Sphere.isSignedDistance hs fun p => ?_⟩
      rw [Exact.le_iff, Exact.zero_eq]
    | cylinder radius height =>
      refine ⟨_, _, _, rfl, fun _ => rfl, fun _ => rfl, Cylinder.isSignedDistance hs.1 hs.2 fun p => ?_⟩
      rw [Exact.le_iff, Exact.zero_eq]
    | mesh m => exact hs.elim
  obtain ⟨inside, distance, nearest, hinside, hdistance, hnearest, h⟩ := hall
  exact ⟨inside, distance, nearest, hinside, hdistance, hnearest, h, fun p q => h.abs_le_norm_sub⟩

/-- A cylinder of radius one and height two. -/
theorem exists_isSignedDistance_cylinder : (Shape.cylinder (1 : ℝ) 2).IsPositive ∧ ∃ inside distance nearest,
    (Shape.cylinder (1 : ℝ) 2).inside = .ok inside ∧
      (∀ points, (Shape.cylinder (1 : ℝ) 2).signedDistances points = .ok (points.map distance)) ∧
      (∀ points, (Shape.cylinder (1 : ℝ) 2).closestPoints points = .ok (points.map nearest)) ∧
      IsSignedDistance inside distance nearest ∧
      ∀ p q, distance q = 0 → |distance p| ≤ (p - q).norm := by
  have hpositive : (Shape.cylinder (1 : ℝ) 2).IsPositive := ⟨one_pos, two_pos⟩
  exact ⟨hpositive, exists_isSignedDistance hpositive⟩

end Shape

end Clearance
