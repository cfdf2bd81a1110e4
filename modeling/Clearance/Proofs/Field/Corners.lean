import Mathlib.Analysis.SpecialFunctions.Pow.Real
import Mathlib.Tactic.Linarith

/-!
# The sign of a mean over the corners of a cube

A point of the unit cube gets the weighted mean of values at the eight corners. Suppose that no
corner is deeper than its distance to a free corner says, less one half, and that every corner
within distance one of the point is free: then the mean is positive, whatever the other corners are.

* `Corners.mix`: the weighted mean.
* `Corners.FreeAround`: the corners within distance one are free.
* `Corners.FreeAround.mix_pos`: the mean is positive.
-/

namespace Clearance.Corners

/-! ## Means -/

/-- The weighted mean of the values at the eight corners of the unit cube; a corner is given by
    whether its coordinates are one. -/
def mix (V : Bool → Bool → Bool → ℝ) (u v w : ℝ) : ℝ :=
  V false false false * ((1 - u) * (1 - v) * (1 - w)) +
    V false false true * ((1 - u) * (1 - v) * w) +
    V false true false * ((1 - u) * v * (1 - w)) + V false true true * ((1 - u) * v * w) +
    V true false false * (u * (1 - v) * (1 - w)) + V true false true * (u * (1 - v) * w) +
    V true true false * (u * v * (1 - w)) + V true true true * (u * v * w)

variable {V W : Bool → Bool → Bool → ℝ} {u v w : ℝ}

theorem mix_le_mix (hu : 0 ≤ u) (hu' : u ≤ 1) (hv : 0 ≤ v) (hv' : v ≤ 1) (hw : 0 ≤ w) (hw' : w ≤ 1)
    (h : ∀ a b c, V a b c ≤ W a b c) : mix V u v w ≤ mix W u v w := by
  have hu1 : 0 ≤ 1 - u := by linarith
  have hv1 : 0 ≤ 1 - v := by linarith
  have hw1 : 0 ≤ 1 - w := by linarith
  unfold mix
  gcongr <;> apply h

/-- The weights add up to one. -/
theorem mix_const (x : ℝ) : mix (fun _ _ _ => x) u v w = x := by
  unfold mix
  ring

theorem mix_sub : mix (fun a b c => V a b c - W a b c) u v w = mix V u v w - mix W u v w := by
  unfold mix
  ring

theorem mix_flip : mix V (1 - u) v w = mix (fun a b c => V (!a) b c) u v w := by
  simp only [mix, Bool.not_false, Bool.not_true]
  ring

theorem mix_flip_mid : mix V u (1 - v) w = mix (fun a b c => V a (!b) c) u v w := by
  simp only [mix, Bool.not_false, Bool.not_true]
  ring

theorem mix_flip_last : mix V u v (1 - w) = mix (fun a b c => V a b (!c)) u v w := by
  simp only [mix, Bool.not_false, Bool.not_true]
  ring

theorem mix_swap_left : mix V v u w = mix (fun a b c => V b a c) u v w := by
  unfold mix
  ring

theorem mix_swap_right : mix V u w v = mix (fun a b c => V a c b) u v w := by
  unfold mix
  ring

/-! ## Free corners around a point -/

/-- How far a coordinate is from that of a corner. -/
def off (a : Bool) (t : ℝ) : ℝ := if a then 1 - t else t

/-- The mean is bounded by a bound of the values at the corners that have a weight. -/
theorem le_mix {m : ℝ} (hu : 0 ≤ u) (hu' : u ≤ 1) (hv : 0 ≤ v) (hv' : v ≤ 1) (hw : 0 ≤ w)
    (hw' : w ≤ 1) (h : ∀ a b c, off a u ≠ 1 → off b v ≠ 1 → off c w ≠ 1 → m ≤ V a b c) :
    m ≤ mix V u v w := by
  have nonneg : ∀ (a : Bool) {t : ℝ}, 0 ≤ t → t ≤ 1 → 0 ≤ 1 - off a t := by
    intro a t h0 h1
    cases a <;> simp only [off, Bool.false_eq_true, ↓reduceIte] <;> linarith
  have weighted : ∀ a b c, 0 ≤ (V a b c - m) * ((1 - off a u) * (1 - off b v) * (1 - off c w)) := by
    intro a b c
    have hnonneg := mul_nonneg (mul_nonneg (nonneg a hu hu') (nonneg b hv hv')) (nonneg c hw hw')
    by_cases hz : (1 - off a u) * (1 - off b v) * (1 - off c w) = 0
    · rw [hz, mul_zero]
    · refine mul_nonneg (sub_nonneg.mpr (h a b c ?_ ?_ ?_)) hnonneg <;>
      · intro e
        rw [e] at hz
        simp at hz
  have hsum : mix V u v w - m = mix (fun a b c => V a b c - m) u v w := by
    rw [mix_sub (W := fun _ _ _ => m), mix_const]
  have hpos : 0 ≤ mix (fun a b c => V a b c - m) u v w := by
    have h1 := weighted false false false
    have h2 := weighted false false true
    have h3 := weighted false true false
    have h4 := weighted false true true
    have h5 := weighted true false false
    have h6 := weighted true false true
    have h7 := weighted true true false
    have h8 := weighted true true true
    simp only [off, Bool.false_eq_true, ↓reduceIte, sub_sub_cancel] at h1 h2 h3 h4 h5 h6 h7 h8
    unfold mix
    linarith
  linarith

/-- One if two corners differ in a coordinate. -/
def differ (a b : Bool) : ℝ := if a = b then 0 else 1

/-- The corner lies within distance one of the point. -/
def Near (a b c : Bool) (u v w : ℝ) : Prop := off a u ^ 2 + off b v ^ 2 + off c w ^ 2 ≤ 1

/-- The corners within distance one of the point are free: no value is below what the distance to
    them says. -/
structure FreeAround (V : Bool → Bool → Bool → ℝ) (u v w : ℝ) : Prop where
  le : ∀ a b c, Near a b c u v w →
    ∀ a' b' c', 1 / 2 - √(differ a a' + differ b b' + differ c c') ≤ V a' b' c'

theorem off_not (a : Bool) (t : ℝ) : off (!a) t = off a (1 - t) := by
  cases a <;> simp [off]

theorem differ_not (a b : Bool) : differ (!a) (!b) = differ a b := by
  cases a <;> cases b <;> rfl

namespace FreeAround

theorem flip (h : FreeAround V u v w) : FreeAround (fun a b c => V (!a) b c) (1 - u) v w := by
  refine ⟨fun a b c hn a' b' c' => ?_⟩
  rw [← differ_not a a']
  refine h.le (!a) b c ?_ (!a') b' c'
  rw [Near, off_not]
  exact hn

theorem swap_left (h : FreeAround V u v w) : FreeAround (fun a b c => V b a c) v u w := by
  refine ⟨fun a b c hn a' b' c' => ?_⟩
  rw [add_comm (differ a a')]
  refine h.le b a c ?_ b' a' c'
  unfold Near at *
  linarith

theorem swap_right (h : FreeAround V u v w) : FreeAround (fun a b c => V a c b) u w v := by
  refine ⟨fun a b c hn a' b' c' => ?_⟩
  rw [add_right_comm]
  refine h.le a c b ?_ a' c' b'
  unfold Near at *
  linarith

theorem flip_mid (h : FreeAround V u v w) : FreeAround (fun a b c => V a (!b) c) u (1 - v) w :=
  h.swap_left.flip.swap_left

theorem flip_last (h : FreeAround V u v w) : FreeAround (fun a b c => V a b (!c)) u v (1 - w) :=
  h.swap_right.flip_mid.swap_right

end FreeAround

/-! ## Points near the first corner

By symmetry the coordinates are at most one half, and the first is the greatest and the last the
least. The first corner and its neighbour along the first axis are near then; the cases are told
apart by the next corners. -/

section Sorted

variable (hw : 0 ≤ w) (hwv : w ≤ v) (hvu : v ≤ u) (hu : u ≤ 1 / 2)

include hw hwv hvu hu

/-- The mean is positive if the values are above one half less a cost whose mean is below one
    half. -/
theorem mix_pos_of_cost (cost : Bool → Bool → Bool → ℝ) (h : ∀ a b c, 1 / 2 - cost a b c ≤ V a b c)
    (hc : mix cost u v w < 1 / 2) : 0 < mix V u v w := by
  have hle : mix (fun a b c => 1 / 2 - cost a b c) u v w ≤ mix V u v w :=
    mix_le_mix (by linarith) (by linarith) (by linarith) (by linarith) hw (by linarith) h
  rw [mix_sub (V := fun _ _ _ => 1 / 2), mix_const] at hle
  linarith

theorem near_first : Near false false false u v w := by
  simp only [Near, off, Bool.false_eq_true, ↓reduceIte]
  nlinarith

/-- The neighbour along the first axis is near. -/
theorem near_second : Near true false false u v w := by
  simp only [Near, off, Bool.false_eq_true, ↓reduceIte]
  nlinarith

/-- The neighbours along the second and the third axis are not near. -/
theorem mix_pos_of_two_far (h : FreeAround V u v w) (hn : ¬ Near false true false u v w) :
    0 < mix V u v w := by
  have root : ∀ a b : Bool,
      √(differ false a + differ false b) ≤ differ false a + differ false b := by
    have h2 : √2 ≤ 2 := Real.sqrt_le_iff.mpr ⟨by norm_num, by norm_num⟩
    intro a b
    cases a <;> cases b <;> norm_num [differ, h2]
  refine mix_pos_of_cost hw hwv hvu hu (fun _ b c => differ false b + differ false c)
    (fun a b c => ?_) ?_
  · refine (sub_le_sub_left (root b c) _).trans ?_
    cases a
    · simpa [differ] using h.le _ _ _ (near_first hw hwv hvu hu) false b c
    · simpa [differ] using h.le _ _ _ (near_second hw hwv hvu hu) true b c
  · have e : mix (fun _ b c => differ false b + differ false c) u v w = v + w := by
      simp only [mix, differ, ↓reduceIte, Bool.false_eq_true]
      ring
    simp only [Near, off, Bool.false_eq_true, ↓reduceIte] at hn
    rw [e]
    nlinarith

/-- Only the neighbour along the third axis is not near. -/
theorem mix_pos_of_one_far (h : FreeAround V u v w) (hn : Near false true false u v w)
    (hn' : ¬ Near false false true u v w) : 0 < mix V u v w := by
  refine mix_pos_of_cost hw hwv hvu hu (fun a b c => √(differ false (a && b) + differ false c))
    (fun a b c => ?_) ?_
  · cases a
    · cases b
      · simpa [differ] using h.le _ _ _ (near_first hw hwv hvu hu) false false c
      · simpa [differ] using h.le _ _ _ hn false true c
    · simpa [differ] using h.le _ _ _ (near_second hw hwv hvu hu) true b c
  · have e : mix (fun a b c => √(differ false (a && b) + differ false c)) u v w =
        w + u * v * (1 + (√2 - 2) * w) := by
      simp only [mix, differ, Bool.and_false, Bool.and_true, ↓reduceIte, Bool.false_eq_true,
        add_zero, zero_add, Real.sqrt_zero, Real.sqrt_one, one_add_one_eq_two]
      ring
    have h2 : √2 ^ 2 = 2 := Real.sq_sqrt (by norm_num)
    have h0 : 0 ≤ √2 := Real.sqrt_nonneg _
    have far : (1 : ℝ) / 2 < (1 - w) ^ 2 := by
      simp only [Near, off, Bool.false_eq_true, ↓reduceIte] at hn'
      nlinarith
    have hwlt : √2 / 2 < 1 - w := by
      refine lt_of_pow_lt_pow_left₀ 2 (by linarith) ?_
      rw [div_pow, h2]
      linarith
    have huv : u * v ≤ 1 / 4 := by nlinarith
    have hpos : 0 ≤ 1 + (√2 - 2) * w := by nlinarith
    calc mix (fun a b c => √(differ false (a && b) + differ false c)) u v w
        = w + u * v * (1 + (√2 - 2) * w) := e
      _ ≤ w + 1 / 4 * (1 + (√2 - 2) * w) := by gcongr
      _ = 1 / 4 + w * (2 + √2) / 4 := by ring
      _ < 1 / 2 := by nlinarith

/-- All three neighbours are near, and the corner across the first two axes. -/
theorem mix_pos_of_pair (h : FreeAround V u v w) (h2 : Near false true false u v w)
    (h3 : Near false false true u v w) (hp : Near true true false u v w) : 0 < mix V u v w := by
  refine mix_pos_of_cost hw hwv hvu hu (fun a b c => √(differ false ((a || b) && c)))
    (fun a b c => ?_) ?_
  · cases a <;> cases b
    · cases c
      · simpa [differ] using h.le _ _ _ (near_first hw hwv hvu hu) false false false
      · simpa [differ] using h.le _ _ _ h3 false false true
    · simpa [differ] using h.le _ _ _ h2 false true c
    · simpa [differ] using h.le _ _ _ (near_second hw hwv hvu hu) true false c
    · simpa [differ] using h.le _ _ _ hp true true c
  · have e : mix (fun a b c => √(differ false ((a || b) && c))) u v w =
        w * (1 - (1 - u) * (1 - v)) := by
      simp [mix, differ]
      ring
    have hle : 1 / 4 ≤ (1 - u) * (1 - v) := by nlinarith
    rw [e]
    nlinarith

/-- All three neighbours are near, but no corner across two axes. -/
theorem mix_pos_of_no_pair (h : FreeAround V u v w) (h2 : Near false true false u v w)
    (h3 : Near false false true u v w) (hp : ¬ Near true true false u v w) : 0 < mix V u v w := by
  refine mix_pos_of_cost hw hwv hvu hu
    (fun a b c => if a then √(differ false b + differ false c) else differ false (b && c))
    (fun a b c => ?_) ?_
  · cases a
    · cases b
      · cases c
        · simpa [differ] using h.le _ _ _ (near_first hw hwv hvu hu) false false false
        · simpa [differ] using h.le _ _ _ h3 false false true
      · cases c
        · simpa [differ] using h.le _ _ _ h2 false true false
        · simpa [differ] using h.le _ _ _ h2 false true true
    · simpa [differ] using h.le _ _ _ (near_second hw hwv hvu hu) true b c
  · have e : mix (fun a b c => if a then √(differ false b + differ false c) else
          differ false (b && c)) u v w =
        u * v + u * w + v * w - (3 - √2) * (u * v * w) := by
      simp only [mix, differ, Bool.and_false, Bool.and_true, ↓reduceIte, Bool.false_eq_true,
        add_zero, zero_add, Real.sqrt_zero, Real.sqrt_one, one_add_one_eq_two]
      ring
    have hroot : √2 ≤ 2 := Real.sqrt_le_iff.mpr ⟨by norm_num, by norm_num⟩
    have huvw : 0 ≤ (3 - √2) * (u * v * w) := by
      have hv : 0 ≤ v := hw.trans hwv
      have : 0 ≤ u * v * w := mul_nonneg (mul_nonneg (hv.trans hvu) hv) hw
      nlinarith
    have hsum : u + v + w < 6 / 5 := by
      simp only [Near, off, Bool.false_eq_true, ↓reduceIte] at hp
      nlinarith
    rw [e]
    nlinarith [sq_nonneg (u - v), sq_nonneg (u - w), sq_nonneg (v - w)]

theorem mix_pos_of_sorted (h : FreeAround V u v w) : 0 < mix V u v w := by
  by_cases h2 : Near false true false u v w
  · by_cases h3 : Near false false true u v w
    · by_cases hp : Near true true false u v w
      · exact mix_pos_of_pair hw hwv hvu hu h h2 h3 hp
      · exact mix_pos_of_no_pair hw hwv hvu hu h h2 h3 hp
    · exact mix_pos_of_one_far hw hwv hvu hu h h2 h3
  · exact mix_pos_of_two_far hw hwv hvu hu h h2

end Sorted

/-! ## All points -/

theorem mix_pos_of_le_half (hu : 0 ≤ u) (hu' : u ≤ 1 / 2) (hv : 0 ≤ v) (hv' : v ≤ 1 / 2)
    (hw : 0 ≤ w) (hw' : w ≤ 1 / 2) (h : FreeAround V u v w) : 0 < mix V u v w := by
  rcases le_total v u with hvu | huv
  · rcases le_total w v with hwv | hvw
    · exact mix_pos_of_sorted hw hwv hvu hu' h
    · rw [← mix_swap_right (V := fun a b c => V a c b)]
      rcases le_total w u with hwu | huw
      · exact mix_pos_of_sorted hv hvw hwu hu' h.swap_right
      · rw [← mix_swap_left (V := fun a b c => V b c a)]
        exact mix_pos_of_sorted hv hvu huw hw' h.swap_right.swap_left
  · rw [← mix_swap_left (V := fun a b c => V b a c)]
    rcases le_total w u with hwu | huw
    · exact mix_pos_of_sorted hw hwu huv hv' h.swap_left
    · rw [← mix_swap_right (V := fun a b c => V c a b)]
      rcases le_total w v with hwv | hvw
      · exact mix_pos_of_sorted hu huw hwv hv' h.swap_left.swap_right
      · rw [← mix_swap_left (V := fun a b c => V c b a)]
        exact mix_pos_of_sorted hu huv hvw hw' h.swap_left.swap_right.swap_left

theorem mix_pos_of_two_le_half (hu : 0 ≤ u) (hu' : u ≤ 1) (hv : 0 ≤ v) (hv' : v ≤ 1 / 2)
    (hw : 0 ≤ w) (hw' : w ≤ 1 / 2) (h : FreeAround V u v w) : 0 < mix V u v w := by
  rcases le_total u (1 / 2) with hle | hge
  · exact mix_pos_of_le_half hu hle hv hv' hw hw' h
  · rw [← sub_sub_cancel 1 u, mix_flip]
    exact mix_pos_of_le_half (by linarith) (by linarith) hv hv' hw hw' h.flip

theorem mix_pos_of_one_le_half (hu : 0 ≤ u) (hu' : u ≤ 1) (hv : 0 ≤ v) (hv' : v ≤ 1) (hw : 0 ≤ w)
    (hw' : w ≤ 1 / 2) (h : FreeAround V u v w) : 0 < mix V u v w := by
  rcases le_total v (1 / 2) with hle | hge
  · exact mix_pos_of_two_le_half hu hu' hv hle hw hw' h
  · rw [← sub_sub_cancel 1 v, mix_flip_mid]
    exact mix_pos_of_two_le_half hu hu' (by linarith) (by linarith) hw hw' h.flip_mid

/-- The mean over corners that are free around the point is positive. -/
theorem FreeAround.mix_pos (hu : 0 ≤ u) (hu' : u ≤ 1) (hv : 0 ≤ v) (hv' : v ≤ 1) (hw : 0 ≤ w)
    (hw' : w ≤ 1) (h : FreeAround V u v w) : 0 < mix V u v w := by
  rcases le_total w (1 / 2) with hle | hge
  · exact mix_pos_of_one_le_half hu hu' hv hv' hw hle h
  · rw [← sub_sub_cancel 1 w, mix_flip_last]
    exact mix_pos_of_one_le_half hu hu' hv hv' (by linarith) (by linarith) h.flip_last

end Clearance.Corners
