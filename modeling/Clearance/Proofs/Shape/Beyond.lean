import Clearance.Proofs.Geometry.Bounds

/-!
# How far a point is beyond the faces

The excess of a point tells by how much each of its coordinates is beyond a face; inside, all of them
are negative. How far the point is beyond the faces is the length of the positive part of the excess,
and inside the greatest of its coordinates. That is the greatest part of the excess in a direction
without negative coordinates, and so it changes by no more than the excess does.

* `Vec3.beyond`: how far a point of a given excess is beyond the faces.
* `Vec3.dot_le_beyond`, `Vec3.exists_dot_eq_beyond`: the part of the excess in a direction.
* `Vec3.beyond_le_add`: how it changes.
* `Vec3.beyond_nonpos_iff`, `Vec3.beyond_eq_zero`: inside and on the faces.
-/

namespace Clearance.Vec3

/-- The coordinates that are positive, and zero in place of the others. -/
noncomputable def positivePart (e : Vec3 ℝ) : Vec3 ℝ := ⟨Max.max e.x 0, Max.max e.y 0, Max.max e.z 0⟩

/-- How far a point is beyond the faces by its excess over each of them: outside the length of what is
    positive, inside the greatest coordinate. -/
noncomputable def beyond (e : Vec3 ℝ) : ℝ := e.positivePart.norm + Min.min (Max.max (Max.max e.x e.y) e.z) 0

/-- A direction without negative coordinates. -/
structure IsOutward (w : Vec3 ℝ) : Prop where
  x : 0 ≤ w.x
  y : 0 ≤ w.y
  z : 0 ≤ w.z
  length : w.normSq = 1

variable {e e' d w : Vec3 ℝ}

/-- The scalar product is at most the product of the lengths. -/
theorem dot_le_norm_mul_norm (u v : Vec3 ℝ) : u.dot v ≤ u.norm * v.norm := by
  rw [norm_eq, norm_eq, ← Real.sqrt_mul (normSq_nonneg u)]
  exact Real.le_sqrt_of_sq_le (dot_sq_le u v)

theorem IsOutward.dot_le_norm (hw : w.IsOutward) (v : Vec3 ℝ) : w.dot v ≤ v.norm := by
  have h := dot_le_norm_mul_norm w v
  rwa [norm_eq w, hw.length, Real.sqrt_one, one_mul] at h

/-! ## Inside and outside -/

theorem nonneg_max_iff : 0 ≤ Max.max (Max.max e.x e.y) e.z ↔ 0 ≤ e.x ∨ 0 ≤ e.y ∨ 0 ≤ e.z := by
  rw [le_max_iff, le_max_iff, or_assoc]

/-- Inside nothing of the excess is positive. -/
theorem beyond_of_nonpos (hx : e.x ≤ 0) (hy : e.y ≤ 0) (hz : e.z ≤ 0) :
    beyond e = Max.max (Max.max e.x e.y) e.z := by
  have hpart : e.positivePart = ⟨0, 0, 0⟩ := by
    rw [positivePart, max_eq_right hx, max_eq_right hy, max_eq_right hz]
  rw [beyond, hpart, norm_onAxis, abs_zero, zero_add, min_eq_left (max_le (max_le hx hy) hz)]

/-- Outside, what is not positive does not count. -/
theorem beyond_of_nonneg (h : 0 ≤ Max.max (Max.max e.x e.y) e.z) : beyond e = e.positivePart.norm := by
  rw [beyond, min_eq_right h, add_zero]

theorem norm_positivePart_pos (h : 0 < e.x ∨ 0 < e.y ∨ 0 < e.z) : 0 < e.positivePart.norm := by
  rw [norm_eq, Real.sqrt_pos, normSq, positivePart]
  rcases h with h | h | h
  · have hx : 0 < Max.max e.x 0 := lt_max_of_lt_left h
    positivity
  · have hy : 0 < Max.max e.y 0 := lt_max_of_lt_left h
    positivity
  · have hz : 0 < Max.max e.z 0 := lt_max_of_lt_left h
    positivity

/-- Where something of the excess is positive, nothing of it is taken off. -/
theorem beyond_of_pos (h : 0 < e.x ∨ 0 < e.y ∨ 0 < e.z) : beyond e = e.positivePart.norm :=
  beyond_of_nonneg (nonneg_max_iff.mpr (h.imp le_of_lt (Or.imp le_of_lt le_of_lt)))

theorem beyond_nonpos_iff : beyond e ≤ 0 ↔ e.x ≤ 0 ∧ e.y ≤ 0 ∧ e.z ≤ 0 := by
  constructor
  · intro h
    by_contra hn
    have hpos : 0 < e.x ∨ 0 < e.y ∨ 0 < e.z := by
      by_contra hno
      simp only [not_or, not_lt] at hno
      exact hn hno
    rw [beyond_of_pos hpos] at h
    exact h.not_gt (norm_positivePart_pos hpos)
  · rintro ⟨hx, hy, hz⟩
    rw [beyond_of_nonpos hx hy hz]
    exact max_le (max_le hx hy) hz

/-- On a face, and beyond none. -/
theorem beyond_eq_zero (hx : e.x ≤ 0) (hy : e.y ≤ 0) (hz : e.z ≤ 0) (h : e.x = 0 ∨ e.y = 0 ∨ e.z = 0) :
    beyond e = 0 := by
  rw [beyond_of_nonpos hx hy hz]
  exact le_antisymm (max_le (max_le hx hy) hz) (nonneg_max_iff.mpr (h.imp Eq.ge (Or.imp Eq.ge Eq.ge)))

/-! ## Directions -/

/-- No part of the excess in such a direction is greater. -/
theorem dot_le_beyond (hw : w.IsOutward) (e : Vec3 ℝ) : w.dot e ≤ beyond e := by
  rcases le_or_gt 0 (Max.max (Max.max e.x e.y) e.z) with h | h
  · rw [beyond_of_nonneg h]
    refine le_trans ?_ (hw.dot_le_norm e.positivePart)
    have hx := mul_le_mul_of_nonneg_left (le_max_left e.x 0) hw.x
    have hy := mul_le_mul_of_nonneg_left (le_max_left e.y 0) hw.y
    have hz := mul_le_mul_of_nonneg_left (le_max_left e.z 0) hw.z
    simp only [dot, positivePart]
    linarith
  · simp only [max_lt_iff] at h
    rw [beyond_of_nonpos h.1.1.le h.1.2.le h.2.le]
    generalize hm : Max.max (Max.max e.x e.y) e.z = m
    have hx : e.x ≤ m := hm ▸ (le_max_left _ _).trans (le_max_left _ _)
    have hy : e.y ≤ m := hm ▸ (le_max_right _ _).trans (le_max_left _ _)
    have hz : e.z ≤ m := hm ▸ le_max_right _ _
    have hm0 : m < 0 := hm ▸ max_lt (max_lt h.1.1 h.1.2) h.2
    -- The coordinates of a direction add up to one at least.
    have hsum : 1 ≤ w.x + w.y + w.z := by
      have hlength := hw.length
      rw [normSq] at hlength
      nlinarith [mul_nonneg hw.x hw.y, mul_nonneg hw.y hw.z, mul_nonneg hw.x hw.z, hw.x, hw.y, hw.z]
    calc w.dot e ≤ w.x * m + w.y * m + w.z * m := by
          have hx := mul_le_mul_of_nonneg_left hx hw.x
          have hy := mul_le_mul_of_nonneg_left hy hw.y
          have hz := mul_le_mul_of_nonneg_left hz hw.z
          simp only [dot]
          linarith
      _ ≤ m := by nlinarith

theorem isOutward_divide_norm (h : 0 < e.positivePart.norm) :
    (e.positivePart.divide e.positivePart.norm).IsOutward := by
  refine ⟨div_nonneg (le_max_right _ _) h.le, div_nonneg (le_max_right _ _) h.le,
    div_nonneg (le_max_right _ _) h.le, ?_⟩
  have hsq := norm_sq e.positivePart
  simp only [normSq, divide, div_pow] at hsq ⊢
  rw [← add_div, ← add_div, ← hsq, div_self (by positivity)]

/-- In the direction of what is positive of it, the excess is as long as that. -/
theorem dot_divide_norm (h : 0 < e.positivePart.norm) :
    (e.positivePart.divide e.positivePart.norm).dot e = e.positivePart.norm := by
  have hpart : ∀ a : ℝ, Max.max a 0 * a = Max.max a 0 ^ 2 := by
    intro a
    rcases le_total a 0 with h | h
    · rw [max_eq_right h]
      ring
    · rw [max_eq_left h]
      ring
  have hsq := norm_sq e.positivePart
  simp only [normSq] at hsq
  simp only [dot, divide, positivePart] at hsq h ⊢
  rw [div_mul_eq_mul_div, div_mul_eq_mul_div, div_mul_eq_mul_div, hpart, hpart, hpart, ← add_div, ← add_div,
    ← hsq, sq, mul_div_assoc, div_self h.ne', mul_one]

/-- Some part of the excess in such a direction is as great. -/
theorem exists_dot_eq_beyond (e : Vec3 ℝ) : ∃ w : Vec3 ℝ, w.IsOutward ∧ w.dot e = beyond e := by
  by_cases hpos : 0 < e.x ∨ 0 < e.y ∨ 0 < e.z
  · have hn := norm_positivePart_pos hpos
    exact ⟨_, isOutward_divide_norm hn, (dot_divide_norm hn).trans (beyond_of_pos hpos).symm⟩
  · simp only [not_or, not_lt] at hpos
    obtain ⟨hx, hy, hz⟩ := hpos
    rw [beyond_of_nonpos hx hy hz]
    rcases max_choice (Max.max e.x e.y) e.z with h | h
    · rcases max_choice e.x e.y with h' | h'
      · refine ⟨⟨1, 0, 0⟩, ⟨zero_le_one, le_rfl, le_rfl, by simp [normSq]⟩, ?_⟩
        rw [h, h']
        simp [dot]
      · refine ⟨⟨0, 1, 0⟩, ⟨le_rfl, zero_le_one, le_rfl, by simp [normSq]⟩, ?_⟩
        rw [h, h']
        simp [dot]
    · refine ⟨⟨0, 0, 1⟩, ⟨le_rfl, le_rfl, zero_le_one, by simp [normSq]⟩, ?_⟩
      rw [h]
      simp [dot]

/-- How far a point is beyond the faces grows by no more than the excess. -/
theorem beyond_le_add (hx : e'.x ≤ e.x + d.x) (hy : e'.y ≤ e.y + d.y) (hz : e'.z ≤ e.z + d.z) :
    beyond e' ≤ beyond e + d.norm := by
  obtain ⟨w, hw, heq⟩ := exists_dot_eq_beyond e'
  have hx := mul_le_mul_of_nonneg_left hx hw.x
  have hy := mul_le_mul_of_nonneg_left hy hw.y
  have hz := mul_le_mul_of_nonneg_left hz hw.z
  calc beyond e' = w.dot e' := heq.symm
    _ ≤ w.dot e + w.dot d := by
      simp only [dot]
      linarith
    _ ≤ beyond e + d.norm := add_le_add (dot_le_beyond hw e) (hw.dot_le_norm d)

end Clearance.Vec3
