import Mathlib.Data.Nat.Dist
import Clearance.Proofs.Number.Exact
import Clearance.Proofs.Field.Grid
import Clearance.Field.DistanceTransform

/-!
# The distance transform is exact

`DistanceTransform.squared` holds the squares of the distances to the nearest background, and the
signed distances are bounded by the distances to every free and every occupied voxel.

* `relax_le`, `relax_attains`: along one line, the least value plus the square of the way.
* `isNearest_squared`: the squares of the distances to the nearest background.
* `signed_of_free`, `signed_of_occupied`, `le_signed`: bounds of the signed distances in exact
  arithmetic.
-/

namespace Clearance.DistanceTransform

/-! ## One line -/

section Line

variable {n far i j d best steps : ℕ} {f : ℕ → ℕ}

/-- The smaller of two values if the second one is on offer, else the first. -/
def lowered (p : Prop) [Decidable p] (best v : ℕ) : ℕ := if p then Nat.min best v else best

theorem lowered_le_best {p : Prop} [Decidable p] {v : ℕ} : lowered p best v ≤ best := by
  unfold lowered
  split_ifs
  · exact Nat.min_le_left _ _
  · exact le_rfl

theorem lowered_le {p : Prop} [Decidable p] {v : ℕ} (h : p) : lowered p best v ≤ v := by
  rw [lowered, if_pos h]
  exact Nat.min_le_right _ _

theorem lowered_attains {p : Prop} [Decidable p] {v : ℕ} :
    lowered p best v = best ∨ p ∧ lowered p best v = v := by
  unfold lowered
  split_ifs with h
  · rcases Nat.le_total best v with h' | h'
    · exact .inl (Nat.min_eq_left h')
    · exact .inr ⟨h, Nat.min_eq_right h'⟩
  · exact .inl rfl

/-- The best value after a look at both places at distance `d`. -/
def looked (n : ℕ) (f : ℕ → ℕ) (i d best : ℕ) : ℕ :=
  lowered (i + d < n) (lowered ((d ≤ i && i - d < n) = true) best (f (i - d) + d * d))
    (f (i + d) + d * d)

theorem search_succ : search n f i (steps + 1) d best =
    if best ≤ d * d then best else search n f i steps (d + 1) (looked n f i d best) := rfl

theorem looked_le_best : looked n f i d best ≤ best := lowered_le_best.trans lowered_le_best

theorem looked_le (hj : j < n) (hd : Nat.dist i j = d) : looked n f i d best ≤ f j + d * d := by
  rcases Nat.le_total j i with h | h
  · rw [Nat.dist_eq_sub_of_le_right h] at hd
    have hi : (d ≤ i && i - d < n) = true := by
      simp only [Bool.and_eq_true, decide_eq_true_eq]
      omega
    rw [show j = i - d by omega]
    exact lowered_le_best.trans (lowered_le hi)
  · rw [Nat.dist_eq_sub_of_le h] at hd
    rw [show j = i + d by omega]
    exact lowered_le (by omega)

theorem looked_attains :
    looked n f i d best = best ∨ ∃ j < n, looked n f i d best = f j + Nat.dist i j ^ 2 := by
  unfold looked
  generalize hleft : lowered ((d ≤ i && i - d < n) = true) best (f (i - d) + d * d) = left
  have hl : left = best ∨ (d ≤ i && i - d < n) = true ∧ left = f (i - d) + d * d :=
    hleft ▸ lowered_attains
  have hr : lowered (i + d < n) left (f (i + d) + d * d) = left ∨
      i + d < n ∧ lowered (i + d < n) left (f (i + d) + d * d) = f (i + d) + d * d :=
    lowered_attains
  rcases hr with e | ⟨h, e⟩
  · rcases hl with e' | ⟨h, e'⟩
    · exact .inl (e.trans e')
    · simp only [Bool.and_eq_true, decide_eq_true_eq] at h
      refine .inr ⟨i - d, h.2, ?_⟩
      rw [Nat.dist_eq_sub_of_le_right (Nat.sub_le i d), Nat.sub_sub_self h.1, pow_two]
      exact e.trans e'
  · refine .inr ⟨i + d, h, ?_⟩
    rw [Nat.dist_eq_sub_of_le (Nat.le_add_right i d), Nat.add_sub_cancel_left, pow_two]
    exact e

theorem search_le_best : search n f i steps d best ≤ best := by
  induction steps generalizing d best with
  | zero => exact le_rfl
  | succ steps ih =>
    rw [search_succ]
    split_ifs
    · exact le_rfl
    · exact ih.trans looked_le_best

/-- The search sees every place that is near enough, or has a value that is not above the square of
    the way there. -/
theorem search_le (hj : j < n) (hd : d ≤ Nat.dist i j) (hs : Nat.dist i j < d + steps) :
    search n f i steps d best ≤ f j + Nat.dist i j ^ 2 := by
  induction steps generalizing d best with
  | zero => omega
  | succ steps ih =>
    rw [search_succ]
    split_ifs with h
    · have : d * d ≤ Nat.dist i j ^ 2 := by
        rw [pow_two]
        exact Nat.mul_self_le_mul_self hd
      omega
    · rcases Nat.eq_or_lt_of_le hd with e | hlt
      · have : looked n f i d best ≤ f j + d * d := looked_le hj e.symm
        rw [pow_two, ← e]
        exact search_le_best.trans this
      · exact ih hlt (by omega)

theorem search_attains :
    search n f i steps d best = best ∨
      ∃ j < n, search n f i steps d best = f j + Nat.dist i j ^ 2 := by
  induction steps generalizing d best with
  | zero => exact .inl rfl
  | succ steps ih =>
    rw [search_succ]
    split_ifs
    · exact .inl rfl
    · have hrest : search n f i steps (d + 1) (looked n f i d best) = looked n f i d best ∨
          ∃ j < n, search n f i steps (d + 1) (looked n f i d best) = f j + Nat.dist i j ^ 2 := ih
      rcases hrest with e | h
      · rw [e]
        exact looked_attains
      · exact .inr h

theorem relax_le (hi : i < n) (hj : j < n) : relax far n f i ≤ f j + Nat.dist i j ^ 2 := by
  refine search_le hj (Nat.zero_le _) ?_
  rw [Nat.dist]
  omega

/-- A value that is not `far` is the value of some place plus the square of the way there. -/
theorem relax_attains (h : relax far n f i < far) :
    ∃ j < n, relax far n f i = f j + Nat.dist i j ^ 2 := by
  have hsearch : relax far n f i = far ∨ ∃ j < n, relax far n f i = f j + Nat.dist i j ^ 2 :=
    search_attains
  rcases hsearch with e | h'
  · omega
  · exact h'

end Line

/-! ## Three axes -/

/-- A value is the least of the costs of a set, if these are known to be below `far`. -/
def IsLeast (far : ℕ) (S : Vec3 ℕ → Prop) (cost : Vec3 ℕ → ℕ) (v : ℕ) : Prop :=
  (∀ b, S b → v ≤ cost b) ∧ (v < far → ∃ b, S b ∧ v = cost b)

/-- One axis more: along a line whose values are the least costs of the members with a given key,
    the search finds the least cost of all members, to which the square of the way between the keys
    is added. -/
theorem isLeast_relax {n far i : ℕ} {f : ℕ → ℕ} {S : Vec3 ℕ → Prop} {cost key : Vec3 ℕ → ℕ}
    (hi : i < n) (hkey : ∀ b, S b → key b < n)
    (hf : ∀ j < n, IsLeast far (fun b => S b ∧ key b = j) cost (f j)) :
    IsLeast far S (fun b => cost b + Nat.dist i (key b) ^ 2) (relax far n f i) := by
  constructor
  · intro b hb
    have h1 : relax far n f i ≤ f (key b) + Nat.dist i (key b) ^ 2 := relax_le hi (hkey b hb)
    have h2 := (hf (key b) (hkey b hb)).1 b ⟨hb, rfl⟩
    show relax far n f i ≤ cost b + Nat.dist i (key b) ^ 2
    omega
  · intro h
    obtain ⟨j, hj, e⟩ := relax_attains h
    obtain ⟨b, ⟨hb, rfl⟩, e'⟩ := (hf j hj).2 (by omega)
    exact ⟨b, hb, by rw [e, e']⟩

/-- The square of the distance between two voxels. -/
def gapSq (a b : Vec3 ℕ) : ℕ := Nat.dist a.z b.z ^ 2 + Nat.dist a.y b.y ^ 2 + Nat.dist a.x b.x ^ 2

theorem sq_lt_sq {a b n : ℕ} (ha : a < n) (hb : b < n) : Nat.dist a b ^ 2 < n * n := by
  have h : Nat.dist a b < n := by rw [Nat.dist]; omega
  rw [pow_two]
  exact Nat.mul_self_lt_mul_self h

theorem gapSq_lt_farther {g : Grid Bool} {a b : Vec3 ℕ} (ha : g.Within a) (hb : g.Within b) :
    gapSq a b < farther g.nx g.ny g.nz := by
  have hx := sq_lt_sq ha.1 hb.1
  have hy := sq_lt_sq ha.2.1 hb.2.1
  have hz := sq_lt_sq ha.2.2 hb.2.2
  rw [gapSq, farther]
  omega

/-- A value is the square of the distance from a voxel to the nearest marked one. -/
def IsNearest (g : Grid Bool) (c : Vec3 ℕ) (v : ℕ) : Prop :=
  (∀ b, g.Holds b → v ≤ gapSq c b) ∧ ∃ b, g.Holds b ∧ v = gapSq c b

section Transform

variable {g : Grid Bool}

/-- The value at a voxel before the first axis is looked at. -/
theorem isLeast_start (far : ℕ) {c : Vec3 ℕ} (hc : g.Within c) :
    IsLeast far (fun b => ((g.Holds b ∧ b.x = c.x) ∧ b.y = c.y) ∧ b.z = c.z) (fun _ => 0)
      ((g.map fun b => if b then 0 else far).getD c.x c.y c.z far) := by
  rw [Grid.getD_map hc _ false]
  constructor
  · rintro b ⟨⟨⟨hb, hx⟩, hy⟩, hz⟩
    rw [← hx, ← hy, ← hz, hb.2]
    simp
  · intro h
    have hv : g.getD c.x c.y c.z false = true := by
      by_contra hn
      rw [if_neg hn] at h
      omega
    exact ⟨c, ⟨⟨⟨⟨hc, hv⟩, rfl⟩, rfl⟩, rfl⟩, by simp [hv]⟩

/-- The squares of the distances are those to the nearest background. -/
theorem isNearest_squared (hg : ∃ b, g.Holds b) {c : Vec3 ℕ} (hc : g.Within c) (outside : ℕ) :
    IsNearest g c ((squared g).getD c.x c.y c.z outside) := by
  have least : IsLeast (farther g.nx g.ny g.nz) g.Holds (fun b => 0 + Nat.dist c.z b.z ^ 2 +
      Nat.dist c.y b.y ^ 2 + Nat.dist c.x b.x ^ 2) ((squared g).getD c.x c.y c.z outside) := by
    rw [squared, Grid.getD_ofFn _ _ hc.1 hc.2.1 hc.2.2]
    refine isLeast_relax hc.1 (fun b hb => hb.1.1) fun i hi => ?_
    rw [Grid.getD_ofFn _ _ hi hc.2.1 hc.2.2]
    refine isLeast_relax hc.2.1 (fun b hb => hb.1.1.2.1) fun j hj => ?_
    rw [Grid.getD_ofFn _ _ hi hj hc.2.2]
    refine isLeast_relax hc.2.2 (fun b hb => hb.1.1.1.2.2) fun k hk => ?_
    exact isLeast_start (c := ⟨i, j, k⟩) _ ⟨hi, hj, hk⟩
  simp only [Nat.zero_add] at least
  refine ⟨least.1, least.2 ?_⟩
  obtain ⟨b, hb⟩ := hg
  exact (least.1 b hb).trans_lt (gapSq_lt_farther hc hb.1)

theorem isNearest_squaredFrom (hg : ∃ b, g.Holds b) {c : Vec3 ℕ} (hc : g.Within c) (outside : ℕ) :
    IsNearest g c ((squaredFrom g).getD c.x c.y c.z outside) := by
  obtain ⟨b, hb⟩ := hg
  rw [squaredFrom, if_pos (Grid.any_of_holds hb)]
  exact isNearest_squared ⟨b, hb⟩ hc outside

end Transform

/-! ## Signed distances -/

section Signed

variable {g : Grid Bool} {r : ℝ} {a c : Vec3 ℕ}

/-- The distance between two voxels in units of voxels. -/
noncomputable def gap (a b : Vec3 ℕ) : ℝ := √(gapSq a b)

theorem one_le_gap (h : a ≠ c) : 1 ≤ gap a c := by
  have hpos : 1 ≤ gapSq a c := by
    by_contra hn
    have h0 : gapSq a c = 0 := by omega
    simp only [gapSq, Nat.add_eq_zero_iff, pow_eq_zero_iff, ne_eq, OfNat.ofNat_ne_zero,
      not_false_eq_true] at h0
    exact h (Vec3.ext (Nat.eq_of_dist_eq_zero h0.2) (Nat.eq_of_dist_eq_zero h0.1.2)
      (Nat.eq_of_dist_eq_zero h0.1.1))
  rw [gap, Real.one_le_sqrt]
  exact_mod_cast hpos

theorem signed_eq (hc : g.Within c) : (signed g r).getD c.x c.y c.z 0 =
    signedValue r (g.getD c.x c.y c.z false) ((squaredFrom (g.map (!·))).getD c.x c.y c.z 0)
      ((squaredFrom g).getD c.x c.y c.z 0) :=
  Grid.getD_ofFn _ _ hc.1 hc.2.1 hc.2.2

/-- The signed distance of a free voxel, by a nearest occupied one. -/
theorem signed_of_not_holds (hg : ∃ b, g.Holds b) (hc : g.Within c) (hfree : ¬ g.Holds c) :
    ∃ b, g.Holds b ∧ (∀ a, g.Holds a → gap c b ≤ gap c a) ∧
      (signed g r).getD c.x c.y c.z 0 = (gap c b - 1 / 2) * r := by
  obtain ⟨least, b, hb, e⟩ := isNearest_squaredFrom hg hc 0
  have hv : g.getD c.x c.y c.z false = false := by
    by_contra hn
    exact hfree ⟨hc, by simpa using hn⟩
  refine ⟨b, hb, fun a ha => ?_, ?_⟩
  · refine Real.sqrt_le_sqrt ?_
    exact_mod_cast e ▸ least a ha
  · rw [signed_eq hc, hv, e]
    simp only [signedValue, Bool.false_eq_true, ↓reduceIte, Exact.ofInt_eq, Exact.sqrt_eq,
      Exact.ofScientific_eq]
    rw [Int.cast_natCast, ← gap]
    norm_num

/-- A free voxel is at least half a voxel away from the surface. -/
theorem signed_of_free (hr : 0 ≤ r) (hg : ∃ b, g.Holds b) (hc : g.Within c) (hfree : ¬ g.Holds c) :
    r / 2 ≤ (signed g r).getD c.x c.y c.z 0 := by
  obtain ⟨b, hb, -, e⟩ := signed_of_not_holds (r := r) hg hc hfree
  have h1 : 1 ≤ gap c b := one_le_gap (fun h => hfree (h ▸ hb))
  rw [e]
  nlinarith

/-- The signed distance of an occupied voxel, by a nearest free one. -/
theorem signed_of_holds (hg : ∃ b, g.Within b ∧ ¬ g.Holds b) (hc : g.Holds c) :
    ∃ b, g.Within b ∧ ¬ g.Holds b ∧ (∀ a, g.Within a → ¬ g.Holds a → gap c b ≤ gap c a) ∧
      (signed g r).getD c.x c.y c.z 0 = (1 / 2 - gap c b) * r := by
  have hg' : ∃ b, (g.map (!·)).Holds b := by
    obtain ⟨b, hb⟩ := hg
    exact ⟨b, Grid.holds_map_not.mpr hb⟩
  obtain ⟨least, b, hb, e⟩ := isNearest_squaredFrom hg' (c := c) hc.1 0
  rw [Grid.holds_map_not] at hb
  refine ⟨b, hb.1, hb.2, fun a ha hfree => ?_, ?_⟩
  · refine Real.sqrt_le_sqrt ?_
    exact_mod_cast e ▸ least a (Grid.holds_map_not.mpr ⟨ha, hfree⟩)
  · rw [signed_eq hc.1, hc.2, e]
    simp only [signedValue, ↓reduceIte, Exact.ofInt_eq, Exact.sqrt_eq, Exact.ofScientific_eq]
    rw [Int.cast_natCast, ← gap]
    norm_num

/-- An occupied voxel is at least half a voxel away from the surface, on the other side. -/
theorem signed_of_occupied (hr : 0 ≤ r) (hg : ∃ b, g.Within b ∧ ¬ g.Holds b) (hc : g.Holds c) :
    (signed g r).getD c.x c.y c.z 0 ≤ -(r / 2) := by
  obtain ⟨b, -, hfree, -, e⟩ := signed_of_holds (r := r) hg hc
  have h1 : 1 ≤ gap c b := one_le_gap (fun h => hfree (h ▸ hc))
  rw [e]
  nlinarith

/-- No voxel is deeper inside than its distance to a free voxel says. -/
theorem le_signed (hr : 0 ≤ r) (hg : ∃ b, g.Holds b) (hc : g.Within c) (ha : g.Within a)
    (hfree : ¬ g.Holds a) :
    (1 / 2 - gap c a) * r ≤ (signed g r).getD c.x c.y c.z 0 := by
  by_cases h : g.Holds c
  · obtain ⟨b, -, -, least, e⟩ := signed_of_holds (r := r) ⟨a, ha, hfree⟩ h
    rw [e]
    exact mul_le_mul_of_nonneg_right (by linarith [least a ha hfree]) hr
  · have h1 : 0 ≤ gap c a := Real.sqrt_nonneg _
    refine le_trans ?_ (signed_of_free hr hg hc h)
    nlinarith

end Signed

end Clearance.DistanceTransform
