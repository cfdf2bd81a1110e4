import Mathlib.Algebra.Order.Round
import Mathlib.Analysis.SpecialFunctions.Complex.Arg
import Mathlib.Analysis.SpecialFunctions.Trigonometric.Bounds
import Clearance.Proofs.Shape.SignedDistance

/-!
# Even samples in exact arithmetic

Counts are rounded up, so the gaps between the samples of a length are at most the spacing, and no
place of the length is farther than half of it from all samples. On a circle the same holds along the
arc, and chords are shorter than arcs.

* `Sampling.exists_count_ge`, `Sampling.exists_atLeast_ge`: the counts.
* `Sampling.IsSampled`, `Sampling.isSampled_closed`: samples of an interval.
* `Cylinder.onCircle`: points of a circle around the axis.
* `Cylinder.exists_angle_near`: samples of a circle.
-/

namespace Clearance

namespace Sampling

/-! ## Counts -/

theorem ceilInt_eq (x : ℝ) : ceilInt x = .ok ⌈x⌉ := by
  have h : Scalar.ceil x = ⌈x⌉ := by rw [Scalar.ceil, Exact.floor_eq, Int.floor_neg, neg_neg]
  simp [ceilInt, h]

/-- A count is one more than the gaps, of which there are enough. -/
theorem exists_count_ge (x : ℝ) : ∃ n : ℕ, count x = .ok n ∧ 2 ≤ n ∧ x ≤ n - 1 := by
  refine ⟨_, map_eq_ok.mpr ⟨_, ceilInt_eq x, rfl⟩, Nat.le_max_left _ _, ?_⟩
  have hceil : ⌈x⌉ + 1 ≤ (Nat.max 2 (⌈x⌉ + 1).toNat : ℕ) :=
    (Int.self_le_toNat _).trans (by exact_mod_cast Nat.le_max_right _ _)
  have hcast : (⌈x⌉ : ℝ) + 1 ≤ (Nat.max 2 (⌈x⌉ + 1).toNat : ℕ) := by exact_mod_cast hceil
  linarith [Int.le_ceil x]

theorem exists_atLeast_ge (m : ℕ) (x : ℝ) : ∃ n : ℕ, atLeast m x = .ok n ∧ m ≤ n ∧ x ≤ n := by
  refine ⟨_, map_eq_ok.mpr ⟨_, ceilInt_eq x, rfl⟩, Nat.le_max_left _ _, ?_⟩
  have hceil : ⌈x⌉ ≤ (Nat.max m ⌈x⌉.toNat : ℕ) :=
    (Int.self_le_toNat _).trans (by exact_mod_cast Nat.le_max_right _ _)
  exact (Int.le_ceil x).trans (by exact_mod_cast hceil)

theorem quotient_eq {a b : ℝ} (hb : b ≠ 0) : quotient a b = .ok (a / b) :=
  if_neg fun h => hb ((Exact.eq_iff.mp h).trans Exact.zero_eq)

theorem square_eq (x : ℝ) : square x = .ok (x * x) := by
  simp [square]

/-! ## Samples of an interval -/

/-- Samples of an interval: its ends are among them, they lie in it, and no place of it is farther from
    all of them than half of the spacing. -/
structure IsSampled (xs : List ℝ) (a b spacing : ℝ) : Prop where
  low : a ∈ xs
  high : b ∈ xs
  bounds : ∀ x ∈ xs, a ≤ x ∧ x ≤ b
  near : ∀ x, a ≤ x → x ≤ b → ∃ y ∈ xs, |x - y| ≤ spacing / 2

variable {a b x y spacing : ℝ} {n : ℕ}

/-- A place among the multiples of a gap is within half of the gap of one of them. -/
theorem exists_multiple_near {gap t : ℝ} {m : ℕ} (hgap : 0 ≤ gap) (h0 : 0 ≤ t) (hm : t ≤ m * gap) :
    ∃ i ≤ m, |t - (i : ℕ) * gap| ≤ gap / 2 := by
  rcases hgap.eq_or_lt with rfl | hgap
  · refine ⟨0, Nat.zero_le m, ?_⟩
    rw [le_antisymm (by simpa using hm) h0]
    simp
  · have h0' : 0 ≤ t / gap := div_nonneg h0 hgap.le
    have hm' : t / gap ≤ m := (div_le_iff₀ hgap).mpr hm
    have hlow : 0 ≤ round (t / gap) := by
      rw [round_eq]
      exact Int.floor_nonneg.mpr (by linarith)
    have hhigh : round (t / gap) ≤ m := by
      rw [round_eq]
      exact Int.le_of_lt_add_one (Int.floor_lt.mpr (by push_cast; linarith))
    obtain ⟨i, hi⟩ := Int.eq_ofNat_of_zero_le hlow
    have hnear := abs_sub_round (t / gap)
    rw [hi, Int.cast_natCast] at hnear
    refine ⟨i, by omega, ?_⟩
    calc |t - i * gap| = |t / gap - i| * gap := by
          rw [← abs_of_pos hgap, ← abs_mul, abs_of_pos hgap, sub_mul, div_mul_cancel₀ _ hgap.ne']
      _ ≤ 1 / 2 * gap := mul_le_mul_of_nonneg_right hnear hgap.le
      _ = gap / 2 := by ring

/-- The samples, one after another. -/
theorem mem_closed_iff (hn : 2 ≤ n) :
    x ∈ closed a b n ↔ ∃ i : ℕ, i < n ∧ x = a + i * ((b - a) / (n - 1)) := by
  have hpos : (0 : ℝ) < n - 1 := by
    have : (2 : ℝ) ≤ n := by exact_mod_cast hn
    linarith
  have hentry : ∀ i : ℕ, (if i + 1 = n then b else a + Scalar.ofInt (i : ℤ) * ((b - a) / Scalar.ofInt ((n : ℤ) - 1))) =
      a + i * ((b - a) / (n - 1)) := by
    intro i
    split_ifs with h
    · have hi : (i : ℝ) = n - 1 := by
        rw [← h]
        push_cast
        ring
      rw [hi, mul_div_cancel₀ _ hpos.ne']
      ring
    · simp
  simp only [closed, List.mem_map, List.mem_range, hentry]
  exact exists_congr fun _ => and_congr_right fun _ => eq_comm

/-- Enough samples have gaps of at most the spacing. -/
theorem isSampled_closed (hab : a ≤ b) (hspacing : 0 < spacing) (hn : 2 ≤ n) (hcount : (b - a) / spacing ≤ n - 1) :
    IsSampled (closed a b n) a b spacing := by
  have htwo : (2 : ℝ) ≤ n := by exact_mod_cast hn
  have hpos : (0 : ℝ) < n - 1 := by linarith
  have hlast : ((n - 1 : ℕ) : ℝ) = n - 1 := by
    rw [Nat.cast_sub (by omega), Nat.cast_one]
  have hend : a + (n - 1) * ((b - a) / (n - 1)) = b := by
    rw [mul_div_cancel₀ _ hpos.ne']
    ring
  have hgap0 : 0 ≤ (b - a) / (n - 1) := div_nonneg (by linarith) hpos.le
  have hgap : (b - a) / (n - 1) ≤ spacing := by
    rw [div_le_iff₀ hspacing] at hcount
    rw [div_le_iff₀ hpos]
    linarith
  refine { low := (mem_closed_iff hn).mpr ⟨0, by omega, by simp⟩
           high := (mem_closed_iff hn).mpr ⟨n - 1, by omega, by rw [hlast, hend]⟩
           bounds := fun x hx => ?_
           near := fun x hlow hhigh => ?_ }
  · obtain ⟨i, hi, rfl⟩ := (mem_closed_iff hn).mp hx
    have hi' : (i : ℝ) ≤ n - 1 := by
      rw [← hlast]
      exact_mod_cast (by omega : i ≤ n - 1)
    have hle := mul_le_mul_of_nonneg_right hi' hgap0
    constructor
    · have := mul_nonneg (Nat.cast_nonneg i : (0 : ℝ) ≤ i) hgap0
      linarith
    · linarith
  · have hspan : x - a ≤ (n - 1 : ℕ) * ((b - a) / (n - 1)) := by
      rw [hlast]
      linarith
    obtain ⟨i, hi, hnear⟩ := exists_multiple_near hgap0 (sub_nonneg.mpr hlow) hspan
    refine ⟨_, (mem_closed_iff hn).mpr ⟨i, by omega, rfl⟩, ?_⟩
    rw [← sub_sub]
    linarith

/-- The samples are the two ends with the inner ones between them. -/
theorem closed_eq (hn : 2 ≤ n) : closed a b n = a :: (((closed a b n).drop 1).dropLast ++ [b]) := by
  obtain ⟨m, rfl⟩ := Nat.exists_eq_add_of_le' hn
  have hrange : List.range (m + 2) = 0 :: (List.range' 1 m ++ [m + 1]) := by
    rw [List.range_eq_range', List.range'_succ, List.range'_concat, Nat.add_comm 1, Nat.one_mul]
  rw [closed, hrange, List.map_cons, List.map_append, List.map_singleton, List.drop_succ_cons, List.drop_zero,
    List.dropLast_concat, if_pos rfl, if_neg (by omega)]
  simp

/-- A sample that is no end is one of the inner ones. -/
theorem mem_closed_cases (hn : 2 ≤ n) (hx : x ∈ closed a b n) :
    x = a ∨ x = b ∨ x ∈ ((closed a b n).drop 1).dropLast := by
  rw [closed_eq hn, List.mem_cons, List.mem_append, List.mem_singleton] at hx
  exact hx.imp id Or.symm

theorem mem_closed_of_inner (hx : x ∈ ((closed a b n).drop 1).dropLast) : x ∈ closed a b n :=
  List.mem_of_mem_drop (List.mem_of_mem_dropLast hx)

end Sampling

/-! ## Samples of a circle -/

namespace Cylinder

open Sampling

/-- The point of a circle around the axis at an angle and a height. -/
noncomputable def onCircle (r angle z : ℝ) : Vec3 ℝ := ⟨r * Real.cos angle, r * Real.sin angle, z⟩

variable {r r' angle angle' z z' : ℝ} {n : ℕ}

theorem rho_onCircle (hr : 0 ≤ r) : rho (onCircle r angle z) = r := by
  have h : rho (onCircle r angle z) ^ 2 = r ^ 2 := by
    rw [rho_sq, onCircle, mul_pow, mul_pow, ← mul_add, Real.cos_sq_add_sin_sq, mul_one]
  exact (sq_eq_sq₀ (rho_nonneg _) hr).mp h

/-- Every point is one of the circle around the axis on which it lies. -/
theorem exists_eq_onCircle (p : Vec3 ℝ) : ∃ angle, p = onCircle (rho p) angle p.z := by
  have hrho : rho p = ‖(⟨p.x, p.y⟩ : ℂ)‖ := by
    rw [Complex.norm_def, Complex.normSq_mk]
    rfl
  refine ⟨Complex.arg ⟨p.x, p.y⟩, Vec3.ext ?_ ?_ rfl⟩
  · rw [onCircle, hrho, Complex.norm_mul_cos_arg]
  · rw [onCircle, hrho, Complex.norm_mul_sin_arg]

/-- Along a radius, the distance is the difference of the radii. -/
theorem norm_sub_onCircle_radius (r r' angle z : ℝ) :
    (onCircle r angle z - onCircle r' angle z).norm = |r - r'| := by
  refine Vec3.norm_eq_abs ?_
  have h := Real.cos_sq_add_sin_sq angle
  simp only [onCircle, Vec3.sub_def, Vec3.normSq]
  linear_combination (r - r') ^ 2 * h

theorem norm_sub_onCircle_height (r angle z z' : ℝ) :
    (onCircle r angle z - onCircle r angle z').norm = |z - z'| := by
  refine Vec3.norm_eq_abs ?_
  simp only [onCircle, Vec3.sub_def, Vec3.normSq]
  ring

/-- A chord is not longer than its arc. -/
theorem norm_sub_onCircle_angle (hr : 0 ≤ r) (angle angle' z : ℝ) :
    (onCircle r angle z - onCircle r angle' z).norm ≤ r * |angle - angle'| := by
  have hchord : (onCircle r angle z - onCircle r angle' z).normSq = r ^ 2 * (2 - 2 * Real.cos (angle - angle')) := by
    have h := Real.cos_sq_add_sin_sq angle
    have h' := Real.cos_sq_add_sin_sq angle'
    rw [Real.cos_sub]
    simp only [onCircle, Vec3.sub_def, Vec3.normSq]
    linear_combination r ^ 2 * h + r ^ 2 * h'
  rw [Vec3.norm_le_iff (by positivity), hchord, mul_pow, sq_abs]
  have hcos := Real.one_sub_sq_div_two_le_cos (x := angle - angle')
  exact mul_le_mul_of_nonneg_left (by linarith) (sq_nonneg r)

theorem onCircle_sub_turns (r angle z : ℝ) (k : ℤ) : onCircle r (angle - k * (2 * Real.pi)) z = onCircle r angle z := by
  rw [onCircle, onCircle, Real.cos_sub_int_mul_two_pi, Real.sin_sub_int_mul_two_pi]

theorem mem_angles_iff : angle ∈ (angles n : List ℝ) ↔ ∃ i : ℕ, i < n ∧ angle = i * (2 * Real.pi / n) := by
  have hpi : (Scalar.pi : ℝ) = Real.pi := rfl
  simp only [angles, cyclic, List.mem_map, List.mem_range, hpi, Exact.ofInt_eq, Exact.zero_eq,
    Int.cast_natCast, sub_zero, zero_add]
  exact exists_congr fun _ => and_congr_right fun _ => eq_comm

/-- Every angle is within half of the gap of a sampled one, up to whole turns. -/
theorem exists_angle_near (hn : 0 < n) (angle : ℝ) :
    ∃ t ∈ (angles n : List ℝ), ∃ k : ℤ, |angle - k * (2 * Real.pi) - t| ≤ Real.pi / n := by
  have hpos : (0 : ℝ) < n := by exact_mod_cast hn
  have hgap : 0 ≤ 2 * Real.pi / n := by positivity
  have hturn : n * (2 * Real.pi / n) = 2 * Real.pi := mul_div_cancel₀ _ hpos.ne'
  have hhalf : 2 * Real.pi / n / 2 = Real.pi / n := by ring
  have hlow := Int.floor_le (angle / (2 * Real.pi))
  have hhigh := (Int.lt_floor_add_one (angle / (2 * Real.pi))).le
  rw [le_div_iff₀ Real.two_pi_pos] at hlow
  rw [div_le_iff₀ Real.two_pi_pos] at hhigh
  obtain ⟨i, hi, hnear⟩ := exists_multiple_near hgap (sub_nonneg.mpr hlow) (m := n) (by linarith)
  rw [hhalf] at hnear
  rcases hi.lt_or_eq with hi | rfl
  · exact ⟨_, mem_angles_iff.mpr ⟨i, hi, rfl⟩, _, hnear⟩
  · -- The last multiple is a whole turn, so it is the first one of the next.
    refine ⟨_, mem_angles_iff.mpr ⟨0, hn, rfl⟩, ⌊angle / (2 * Real.pi)⌋ + 1, ?_⟩
    rw [hturn] at hnear
    convert hnear using 2
    push_cast
    ring

/-- Enough samples of a circle leave no point of it farther away than half of the spacing. -/
theorem exists_onCircle_near {spacing : ℝ} (hr : 0 ≤ r) (hspacing : 0 < spacing) (hn : 0 < n)
    (hcount : 2 * Real.pi * r / spacing ≤ n) (angle z : ℝ) :
    ∃ t ∈ (angles n : List ℝ), (onCircle r angle z - onCircle r t z).norm ≤ spacing / 2 := by
  obtain ⟨t, ht, k, hk⟩ := exists_angle_near hn angle
  have hpos : (0 : ℝ) < n := by exact_mod_cast hn
  refine ⟨t, ht, ?_⟩
  rw [div_le_iff₀ hspacing] at hcount
  calc (onCircle r angle z - onCircle r t z).norm
      = (onCircle r (angle - k * (2 * Real.pi)) z - onCircle r t z).norm := by rw [onCircle_sub_turns]
    _ ≤ r * |angle - k * (2 * Real.pi) - t| := norm_sub_onCircle_angle hr _ _ _
    _ ≤ r * (Real.pi / n) := mul_le_mul_of_nonneg_left hk hr
    _ ≤ spacing / 2 := by
      rw [← mul_div_assoc, div_le_iff₀ hpos]
      linarith

end Cylinder

end Clearance
