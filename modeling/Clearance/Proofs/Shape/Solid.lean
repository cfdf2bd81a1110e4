import Clearance.Proofs.Geometry.Bounds
import Clearance.Shape.Placed
import Clearance.Shape.Basic

/-!
# Solids

Boxes, spheres and cylinders in exact arithmetic: a solid lies in its bounding box, and a point that
is deep inside of it is surrounded by it.

* `Shape.IsPrimitive`, `Shape.solid`: the shapes without a mesh, and their points.
* `Shape.Covers`, `Shape.covers_iff`: the test of the program for points.
* `Shape.inBounds_of_mem_solid`: the bounding box contains the points.
* `Shape.covers_of_deep`: the ball around a point whose radius is less than its depth.
* `PlacedShape.solid`, `PlacedShape.covers_iff`, `PlacedShape.inBounds_of_covers`: the same at a
  pose.
-/

namespace Clearance

namespace Vec3

/-- The triangle inequality for lengths. -/
theorem norm_le_add (u v : Vec3 ℝ) : u.norm ≤ v.norm + (u - v).norm := by
  have h := norm_sub_le u v ⟨0, 0, 0⟩
  have e : ∀ w : Vec3 ℝ, w - ⟨0, 0, 0⟩ = w := by
    intro w
    simp
  rw [e, e] at h
  linarith

end Vec3

/-! ## Boxes -/

namespace Box

variable {extents p q : Vec3 ℝ}

theorem half_eq (extents : Vec3 ℝ) :
    half extents = ⟨extents.x / 2, extents.y / 2, extents.z / 2⟩ := by
  simp only [half, Exact.ofScientific_eq, Vec3.mk.injEq]
  norm_num
  refine ⟨?_, ?_, ?_⟩ <;> ring

theorem contains_iff : contains extents p = true ↔
    |p.x| ≤ extents.x / 2 ∧ |p.y| ≤ extents.y / 2 ∧ |p.z| ≤ extents.z / 2 := by
  simp [contains, half_eq, and_assoc]

/-- A sum of something nonnegative and a part that is at most zero is deep only if that part is. -/
theorem lt_of_add_min_lt {a b r : ℝ} (ha : 0 ≤ a) (hr : 0 ≤ r) (h : a + min b 0 < -r) : b < -r := by
  rcases min_choice b 0 with e | e <;> rw [e] at h <;> linarith

theorem exists_signedDistance_eq (extents p : Vec3 ℝ) :
    ∃ outside : Vec3 ℝ, signedDistance extents p = outside.norm +
    min (max (max (|p.x| - extents.x / 2) (|p.y| - extents.y / 2)) (|p.z| - extents.z / 2)) 0 := by
  refine ⟨(p.abs - half extents).max (Vec3.replicate 0), ?_⟩
  simp [signedDistance, half_eq, Vec3.abs, Vec3.map, Vec3.maxCoord]

/-- Deep inside, every coordinate is far from its faces. -/
theorem lt_of_signedDistance_lt {r : ℝ} (hr : 0 ≤ r) (h : signedDistance extents p < -r) :
    |p.x| + r < extents.x / 2 ∧ |p.y| + r < extents.y / 2 ∧ |p.z| + r < extents.z / 2 := by
  obtain ⟨outside, e⟩ := exists_signedDistance_eq extents p
  rw [e] at h
  have hmax := lt_of_add_min_lt (Vec3.norm_nonneg outside) hr h
  simp only [max_lt_iff] at hmax
  exact ⟨by linarith [hmax.1.1], by linarith [hmax.1.2], by linarith [hmax.2]⟩

theorem contains_of_deep {r : ℝ} (h : signedDistance extents p < -r) (hq : (q - p).norm ≤ r) :
    contains extents q = true := by
  obtain ⟨hx, hy, hz⟩ := lt_of_signedDistance_lt ((Vec3.norm_nonneg _).trans hq) h
  have near : ∀ {a b : ℝ}, |b - a| ≤ (q - p).norm → |b| ≤ |a| + r := by
    intro a b hab
    have := abs_sub_abs_le_abs_sub b a
    linarith
  rw [contains_iff]
  exact ⟨(near (Vec3.abs_x_le_norm (q - p))).trans hx.le,
    (near (Vec3.abs_y_le_norm (q - p))).trans hy.le,
    (near (Vec3.abs_z_le_norm (q - p))).trans hz.le⟩

end Box

/-! ## Spheres -/

namespace Sphere

theorem signedDistance_of_deep {radius r : ℝ} {p q : Vec3 ℝ} (h : signedDistance radius p < -r)
    (hq : (q - p).norm ≤ r) : signedDistance radius q ≤ 0 := by
  have := Vec3.norm_le_add q p
  simp only [signedDistance] at *
  linarith

end Sphere

/-! ## Cylinders -/

namespace Cylinder

variable {radius height r : ℝ} {p q : Vec3 ℝ}

theorem rho_eq (p : Vec3 ℝ) : rho p = (⟨p.x, p.y, 0⟩ : Vec3 ℝ).norm := by
  simp [rho, Vec3.norm, Vec3.dot]

theorem rho_nonneg (p : Vec3 ℝ) : 0 ≤ rho p := by
  rw [rho_eq]
  exact Vec3.norm_nonneg _

theorem rho_le_add (p q : Vec3 ℝ) : rho q ≤ rho p + (q - p).norm := by
  have h := Vec3.norm_le_add ⟨q.x, q.y, 0⟩ ⟨p.x, p.y, 0⟩
  have h' : ((⟨q.x, q.y, 0⟩ : Vec3 ℝ) - ⟨p.x, p.y, 0⟩).norm ≤ (q - p).norm := by
    refine Vec3.norm_le_norm ?_
    simp only [Vec3.sub_def, Vec3.normSq]
    nlinarith [sq_nonneg (q.z - p.z)]
  rw [rho_eq, rho_eq]
  linarith

theorem signedDistance_eq (radius height : ℝ) (p : Vec3 ℝ) : signedDistance radius height p =
    √(max (rho p - radius) 0 * max (rho p - radius) 0 + max (|p.z| - height / 2) 0 *
      max (|p.z| - height / 2) 0) +
      min (max (rho p - radius) (|p.z| - height / 2)) 0 := by
  have hhalf : ((5 : ℕ) : ℝ) / 10 ^ 1 * height = height / 2 := by
    push_cast
    ring
  simp only [signedDistance, Exact.sqrt_eq, Exact.max_eq, Exact.min_eq, Exact.abs_eq, Exact.zero_eq,
    Exact.ofScientific_eq, hhalf, abs_of_nonneg (rho_nonneg p)]

theorem signedDistance_nonpos_iff :
    signedDistance radius height p ≤ 0 ↔ rho p ≤ radius ∧ |p.z| ≤ height / 2 := by
  rw [signedDistance_eq]
  constructor
  · intro h
    have hroot := Real.sqrt_nonneg (max (rho p - radius) 0 * max (rho p - radius) 0 +
      max (|p.z| - height / 2) 0 * max (|p.z| - height / 2) 0)
    by_contra hn
    have hpos : 0 < max (rho p - radius) 0 * max (rho p - radius) 0 +
        max (|p.z| - height / 2) 0 * max (|p.z| - height / 2) 0 := by
      rcases not_and_or.mp hn with hs | hc
      · have : 0 < max (rho p - radius) 0 := lt_max_of_lt_left (by linarith)
        nlinarith [mul_self_nonneg (max (|p.z| - height / 2) 0)]
      · have : 0 < max (|p.z| - height / 2) 0 := lt_max_of_lt_left (by linarith)
        nlinarith [mul_self_nonneg (max (rho p - radius) 0)]
    have houtside : min (max (rho p - radius) (|p.z| - height / 2)) 0 = 0 := by
      refine min_eq_right ?_
      rcases not_and_or.mp hn with hs | hc
      · exact le_max_of_le_left (by linarith)
      · exact le_max_of_le_right (by linarith)
    rw [houtside] at h
    linarith [Real.sqrt_pos.mpr hpos]
  · rintro ⟨hs, hc⟩
    rw [max_eq_right (by linarith : rho p - radius ≤ 0),
      max_eq_right (by linarith : |p.z| - height / 2 ≤ 0)]
    simp

theorem lt_of_signedDistance_lt (hr : 0 ≤ r) (h : signedDistance radius height p < -r) :
    rho p + r < radius ∧ |p.z| + r < height / 2 := by
  rw [signedDistance_eq] at h
  have := Box.lt_of_add_min_lt (Real.sqrt_nonneg _) hr h
  rw [max_lt_iff] at this
  exact ⟨by linarith [this.1], by linarith [this.2]⟩

theorem signedDistance_of_deep (h : signedDistance radius height p < -r) (hq : (q - p).norm ≤ r) :
    signedDistance radius height q ≤ 0 := by
  obtain ⟨hs, hc⟩ := lt_of_signedDistance_lt ((Vec3.norm_nonneg _).trans hq) h
  have h1 := rho_le_add p q
  have h2 : |q.z - p.z| ≤ (q - p).norm := Vec3.abs_z_le_norm (q - p)
  have h3 := abs_sub_abs_le_abs_sub q.z p.z
  exact signedDistance_nonpos_iff.mpr ⟨by linarith, by linarith⟩

end Cylinder

/-! ## Shapes -/

namespace Shape

variable {s : Shape ℝ} {p q : Vec3 ℝ}

/-- A box, a sphere or a cylinder. -/
def IsPrimitive {α : Type} : Shape α → Prop
  | .mesh _ => False
  | _ => True

/-- The point passes the test of the shape for points that are inside of it or on its surface. -/
def Covers (s : Shape ℝ) (q : Vec3 ℝ) : Prop := ∃ test, s.inside = .ok test ∧ test q = true

theorem exists_inside (h : s.IsPrimitive) : ∃ test, s.inside = .ok test := by
  cases s with
  | mesh m => exact h.elim
  | _ => exact ⟨_, rfl⟩

/-- The points of a box, a sphere or a cylinder in its own frame. A mesh is none of these. -/
def solid : Shape ℝ → Set (Vec3 ℝ)
  | .box extents => {v | |v.x| ≤ extents.x / 2 ∧ |v.y| ≤ extents.y / 2 ∧ |v.z| ≤ extents.z / 2}
  | .sphere radius => {v | √(v.x ^ 2 + v.y ^ 2 + v.z ^ 2) ≤ radius}
  | .cylinder radius height => {v | √(v.x ^ 2 + v.y ^ 2) ≤ radius ∧ |v.z| ≤ height / 2}
  | .mesh _ => ∅

/-- The test for points finds the points of the shape. -/
theorem covers_iff (hs : s.IsPrimitive) : s.Covers q ↔ q ∈ s.solid := by
  have run : ∀ {test : Vec3 ℝ → Bool}, s.inside = .ok test → (s.Covers q ↔ test q = true) := by
    intro test e
    constructor
    · rintro ⟨test', e', h⟩
      rw [Except.ok.inj (e.symm.trans e')]
      exact h
    · exact fun h => ⟨test, e, h⟩
  cases s with
  | box extents => exact (run rfl).trans Box.contains_iff
  | sphere radius =>
    rw [run rfl, Exact.le_iff, Exact.zero_eq, Sphere.signedDistance, sub_nonpos, Vec3.norm_eq]
    rfl
  | cylinder radius height =>
    rw [run rfl, Exact.le_iff, Exact.zero_eq, Cylinder.signedDistance_nonpos_iff, Cylinder.rho_eq,
      Vec3.norm_eq]
    simp [solid, Vec3.normSq]
  | mesh m => exact hs.elim

/-- The bounding box contains the shape. -/
theorem inBounds_of_mem_solid (h : q ∈ s.solid) {b : Vec3 ℝ × Vec3 ℝ} (hb : s.bounds = .ok b) :
    InBounds b q := by
  have cube : ∀ {a b c : ℝ}, |q.x| ≤ a → |q.y| ≤ b → |q.z| ≤ c → InBounds (⟨-a, -b, -c⟩, ⟨a, b, c⟩) q :=
    fun hx hy hz => ⟨⟨(abs_le.mp hx).1, (abs_le.mp hy).1, (abs_le.mp hz).1⟩,
      ⟨(abs_le.mp hx).2, (abs_le.mp hy).2, (abs_le.mp hz).2⟩⟩
  cases s with
  | box extents =>
    obtain rfl : Box.bounds extents = b := Except.ok.inj hb
    rw [Box.bounds, Box.half_eq]
    exact cube h.1 h.2.1 h.2.2
  | sphere radius =>
    obtain rfl : Sphere.bounds radius = b := Except.ok.inj hb
    have hr : q.norm ≤ radius := (Vec3.norm_eq q).trans_le h
    exact cube ((Vec3.abs_x_le_norm q).trans hr) ((Vec3.abs_y_le_norm q).trans hr)
      ((Vec3.abs_z_le_norm q).trans hr)
  | cylinder radius height =>
    obtain rfl : Cylinder.bounds radius height = b := Except.ok.inj hb
    have hhalf : ((5 : ℕ) : ℝ) / 10 ^ 1 * height = height / 2 := by
      push_cast
      ring
    have hr : (⟨q.x, q.y, 0⟩ : Vec3 ℝ).norm ≤ radius := by
      rw [Vec3.norm_eq]
      simpa [Vec3.normSq] using h.1
    simp only [Cylinder.bounds, Exact.ofScientific_eq, hhalf]
    exact cube ((Vec3.abs_x_le_norm ⟨q.x, q.y, 0⟩).trans hr)
      ((Vec3.abs_y_le_norm ⟨q.x, q.y, 0⟩).trans hr) h.2
  | mesh m => exact h.elim

/-- Deep inside of a shape, the points around are inside too. -/
theorem covers_of_deep (hs : s.IsPrimitive) {d r : ℝ} (h : s.signedDistances [p] = .ok [d])
    (hd : d < -r) (hq : (q - p).norm ≤ r) : s.Covers q := by
  cases s with
  | box extents =>
    obtain rfl : Box.signedDistance extents p = d := by simpa [signedDistances] using h
    exact ⟨_, rfl, Box.contains_of_deep hd hq⟩
  | sphere radius =>
    obtain rfl : Sphere.signedDistance radius p = d := by simpa [signedDistances] using h
    refine ⟨_, rfl, ?_⟩
    rw [Exact.le_iff, Exact.zero_eq]
    exact Sphere.signedDistance_of_deep hd hq
  | cylinder radius height =>
    obtain rfl : Cylinder.signedDistance radius height p = d := by simpa [signedDistances] using h
    refine ⟨_, rfl, ?_⟩
    rw [Exact.le_iff, Exact.zero_eq]
    exact Cylinder.signedDistance_of_deep hd hq
  | mesh m => exact hs.elim

end Shape

/-! ## Placed shapes -/

namespace PlacedShape

variable {s : PlacedShape ℝ} {p q : Vec3 ℝ}

/-- The point passes the test of the placed shape. -/
def Covers (s : PlacedShape ℝ) (p : Vec3 ℝ) : Prop := s.shape.Covers (s.pose.rowToLocal p)

/-- The points of a placed shape in the world. -/
def solid (s : PlacedShape ℝ) : Set (Vec3 ℝ) := {p | ∃ v ∈ s.shape.solid, s.pose.toWorld v = p}

/-- The test for points at a rigid pose finds the points of the placed shape. -/
theorem covers_iff (hs : s.shape.IsPrimitive) (hp : s.pose.IsRigid) : s.Covers p ↔ p ∈ s.solid := by
  rw [Covers, Shape.covers_iff hs]
  constructor
  · intro h
    refine ⟨_, h, ?_⟩
    rw [Pose.toWorld_eq_applyRow, Pose.applyRow_rowToLocal hp]
  · rintro ⟨v, hv, rfl⟩
    rw [Pose.toWorld_eq_applyRow, Pose.rowToLocal_applyRow hp]
    exact hv

/-- The bounding box at the pose contains the placed shape. -/
theorem inBounds_of_covers (hs : s.shape.IsPrimitive) (hp : s.pose.IsRigid) (h : s.Covers p)
    {b : Vec3 ℝ × Vec3 ℝ} (hb : s.shape.boundsAt s.pose = .ok b) : InBounds b p := by
  obtain ⟨⟨lo, hi⟩, hlocal, hb⟩ := bind_eq_ok.mp hb
  obtain rfl := Except.ok.inj hb
  have hin := Shape.inBounds_of_mem_solid ((Shape.covers_iff hs).mp h) hlocal
  have hne : (Primitive.corners lo hi).map s.pose.toMotion.applyRow ≠ [] := by
    simp [Primitive.corners]
  rw [← Pose.applyRow_rowToLocal hp p]
  exact inBounds_image s.pose.toMotion (Vec3.minimum_eq_some hne) (Vec3.maximum_eq_some hne) hin

/-- Deep inside of a placed shape, the points around are inside too. -/
theorem covers_of_deep (hs : s.shape.IsPrimitive) (hp : s.pose.IsRigid) {d r : ℝ}
    (h : s.shape.signedDistances [s.pose.rowToLocal p] = .ok [d]) (hd : d < -r)
    (hq : (q - p).norm ≤ r) :
    s.Covers q := by
  refine Shape.covers_of_deep hs h hd ?_
  rw [Pose.norm_rowToLocal_sub hp]
  exact hq

end PlacedShape

end Clearance
