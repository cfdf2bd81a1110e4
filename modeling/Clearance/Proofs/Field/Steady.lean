import Clearance.Proofs.Field.Border

/-!
# Fields without jumps

The signed distances of neighbouring voxels differ by at most the size of a voxel, also where one of
them is free and the other one is not. Along one axis the interpolation therefore changes by no more
than the coordinate does, over any number of cells, and from point to point the axes are taken one
after the other.

* `DistanceTransform.signed_neg_iff`, `DistanceTransform.half_le_abs_signed`: which distances are
  negative, and how great they are.
* `DistanceTransform.abs_signed_sub_le`: neighbouring voxels.
* `OnAxis.abs_along_sub_le`, `OnAxis.abs_along_sub_along_le`: what moves along an axis, and across it.
* `DistanceField.abs_interpolate_sub_le`: two points of the box of the voxel centres.
* `DistanceField.signed_steady`: the field of the signed distances of a grid.
-/

namespace Clearance

namespace DistanceTransform

variable {g : Grid Bool} {r : ℝ} {a b c : Vec3 ℕ}

/-! ## Neighbouring voxels -/

/-- The centre of a voxel in units of voxels. -/
def placeOf (c : Vec3 ℕ) : Vec3 ℝ := ⟨c.x, c.y, c.z⟩

theorem sq_dist (m n : ℕ) : (Nat.dist m n : ℝ) ^ 2 = ((m : ℝ) - n) ^ 2 := by
  rcases Nat.le_total m n with h | h
  · rw [Nat.dist_eq_sub_of_le h, Nat.cast_sub h]
    ring
  · rw [Nat.dist_eq_sub_of_le_right h, Nat.cast_sub h]

theorem gap_eq_norm (a b : Vec3 ℕ) : gap a b = (placeOf a - placeOf b).norm := by
  rw [gap, gapSq, Vec3.norm_eq, Vec3.normSq]
  push_cast
  rw [sq_dist, sq_dist, sq_dist]
  congr 1
  simp only [placeOf, Vec3.sub_def]
  ring

theorem gap_comm (a b : Vec3 ℕ) : gap a b = gap b a := by
  rw [gap_eq_norm, gap_eq_norm, Vec3.norm_sub_comm]

theorem gap_le_add (a b c : Vec3 ℕ) : gap a c ≤ gap a b + gap b c := by
  rw [gap_eq_norm, gap_eq_norm, gap_eq_norm]
  exact Vec3.norm_sub_le _ _ _

theorem gap_next_x (i j k : ℕ) : gap ⟨i, j, k⟩ ⟨i + 1, j, k⟩ = 1 := by simp [gap, gapSq, Nat.dist]

theorem gap_next_y (i j k : ℕ) : gap ⟨i, j, k⟩ ⟨i, j + 1, k⟩ = 1 := by simp [gap, gapSq, Nat.dist]

theorem gap_next_z (i j k : ℕ) : gap ⟨i, j, k⟩ ⟨i, j, k + 1⟩ = 1 := by simp [gap, gapSq, Nat.dist]

/-- The distances are negative at the occupied voxels only. -/
theorem signed_neg_iff (hr : 0 < r) (hocc : ∃ b, g.Holds b) (hfree : ∃ b, g.Within b ∧ ¬ g.Holds b)
    (hc : g.Within c) : (signed g r).getD c.x c.y c.z 0 < 0 ↔ g.Holds c := by
  constructor
  · intro h
    by_contra hn
    have hle := signed_of_free hr.le hocc hc hn
    linarith
  · intro h
    have hle := signed_of_occupied hr.le hfree h
    linarith

/-- All distances are at least half a voxel. -/
theorem half_le_abs_signed (hr : 0 < r) (hocc : ∃ b, g.Holds b) (hfree : ∃ b, g.Within b ∧ ¬ g.Holds b)
    (hc : g.Within c) : r / 2 ≤ |(signed g r).getD c.x c.y c.z 0| := by
  by_cases h : g.Holds c
  · exact le_abs.mpr (.inr (le_neg_of_le_neg (signed_of_occupied hr.le hfree h)))
  · exact le_abs.mpr (.inl (signed_of_free hr.le hocc hc h))

/-- No voxel is farther outside than its distance to an occupied voxel says. -/
theorem signed_le (hr : 0 ≤ r) (hfree : ∃ b, g.Within b ∧ ¬ g.Holds b) (hc : g.Within c) (hb : g.Holds b) :
    (signed g r).getD c.x c.y c.z 0 ≤ (gap c b - 1 / 2) * r := by
  by_cases h : g.Holds c
  · have hgap : 0 ≤ gap c b := Real.sqrt_nonneg _
    refine (signed_of_occupied hr hfree h).trans ?_
    nlinarith
  · obtain ⟨b', -, least, e⟩ := signed_of_not_holds (r := r) ⟨b, hb⟩ hc h
    rw [e]
    exact mul_le_mul_of_nonneg_right (by linarith [least b hb]) hr

/-- From a voxel to a neighbour the distance grows by no more than the size of a voxel. -/
theorem signed_le_add (hr : 0 ≤ r) (hocc : ∃ b, g.Holds b) (hfree : ∃ b, g.Within b ∧ ¬ g.Holds b)
    (ha : g.Within a) (hc : g.Within c) (hac : gap a c ≤ 1) :
    (signed g r).getD a.x a.y a.z 0 ≤ (signed g r).getD c.x c.y c.z 0 + r := by
  by_cases hoccupied : g.Holds a
  · -- A free voxel that is nearest to `a` is nearly as near to `c`.
    obtain ⟨b, hb, hbfree, -, e⟩ := signed_of_holds (r := r) hfree hoccupied
    have hbound := le_signed hr hocc hc hb hbfree
    have hgap := gap_le_add c a b
    rw [gap_comm c a] at hgap
    rw [e]
    nlinarith
  · by_cases hoccupied' : g.Holds c
    · -- The surface lies half way between the two.
      have hbound := le_signed hr hocc hc ha hoccupied
      have hbound' := signed_le hr hfree ha hoccupied'
      rw [gap_comm c a] at hbound
      nlinarith
    · -- An occupied voxel that is nearest to `c` is nearly as near to `a`.
      obtain ⟨b, hb, -, e⟩ := signed_of_not_holds (r := r) hocc hc hoccupied'
      have hbound := signed_le hr hfree ha hb
      have hgap := gap_le_add a c b
      rw [e]
      nlinarith

theorem abs_signed_sub_le (hr : 0 ≤ r) (hocc : ∃ b, g.Holds b) (hfree : ∃ b, g.Within b ∧ ¬ g.Holds b)
    (ha : g.Within a) (hc : g.Within c) (hac : gap a c ≤ 1) :
    |(signed g r).getD a.x a.y a.z 0 - (signed g r).getD c.x c.y c.z 0| ≤ r := by
  have hle := signed_le_add hr hocc hfree ha hc hac
  have hle' := signed_le_add hr hocc hfree hc ha (gap_comm a c ▸ hac)
  rw [abs_le]
  exact ⟨by linarith, by linarith⟩

end DistanceTransform

namespace DistanceField

/-! ## Along one axis -/

/-- The value at a share of the way from a place of an axis to the next. -/
def along (F : ℕ → ℝ) (i : ℕ) (u : ℝ) : ℝ := F i * (1 - u) + F (i + 1) * u

section Axis

variable {o r x y u v m : ℝ} {n i j : ℕ} {F G : ℕ → ℝ}

/-- Over many places the values change by no more than over each of them. -/
theorem abs_sub_le_of_steps (hF : ∀ k, k + 1 < n → |F k - F (k + 1)| ≤ m) (hij : i ≤ j) (hj : j < n) :
    |F i - F j| ≤ (j - i) * m := by
  have hsteps : ∀ {k}, i ≤ k → k < j → dist (F k) (F (k + 1)) ≤ m :=
    fun _ hk => (Real.dist_eq _ _).trans_le (hF _ (by omega))
  have hsum := dist_le_Ico_sum_of_dist_le hij hsteps
  rw [Finset.sum_const, Nat.card_Ico, nsmul_eq_mul, Nat.cast_sub hij] at hsum
  exact (Real.dist_eq _ _).symm.trans_le hsum

/-- Two lines of values that are close at the places are close between them. -/
theorem OnAxis.abs_along_sub_along_le (h : OnAxis o r x n i u) (hFG : ∀ k < n, |F k - G k| ≤ m) :
    |along F i u - along G i u| ≤ m := by
  have hsplit : along F i u - along G i u = (F i - G i) * (1 - u) + (F (i + 1) - G (i + 1)) * u := by
    simp only [along]
    ring
  have hleft := hFG i (Nat.lt_of_succ_lt h.lt)
  have hright := hFG (i + 1) h.lt
  have hu := h.nonneg
  have hu' : 0 ≤ 1 - u := sub_nonneg.mpr h.le_one
  calc |along F i u - along G i u|
      ≤ |F i - G i| * (1 - u) + |F (i + 1) - G (i + 1)| * u := by
        rw [hsplit]
        refine (abs_add_le _ _).trans_eq ?_
        rw [abs_mul, abs_mul, abs_of_nonneg hu, abs_of_nonneg hu']
    _ ≤ m * (1 - u) + m * u := by gcongr
    _ = m := by ring

/-- Where the cell of a coordinate comes before that of another, the way leads over the places between
    them. -/
theorem OnAxis.abs_along_sub_le_of_lt (h : OnAxis o r x n i u) (h' : OnAxis o r y n j v)
    (hF : ∀ k, k + 1 < n → |F k - F (k + 1)| ≤ r) (hij : i < j) :
    |along F i u - along F j v| ≤ |x - y| := by
  have hu := h.nonneg
  have hu' : 0 ≤ 1 - u := sub_nonneg.mpr h.le_one
  have hv := h'.nonneg
  have hfirst : |along F i u - F (i + 1)| ≤ (1 - u) * r := by
    have e : along F i u - F (i + 1) = (1 - u) * (F i - F (i + 1)) := by
      simp only [along]
      ring
    rw [e, abs_mul, abs_of_nonneg hu']
    exact mul_le_mul_of_nonneg_left (hF i h.lt) hu'
  have hbetween := abs_sub_le_of_steps hF hij (Nat.lt_of_succ_lt h'.lt)
  have hlast : |F j - along F j v| ≤ v * r := by
    have e : F j - along F j v = v * (F j - F (j + 1)) := by
      simp only [along]
      ring
    rw [e, abs_mul, abs_of_nonneg hv]
    exact mul_le_mul_of_nonneg_left (hF j h'.lt) hv
  have hway : (1 - u) * r + ((j - (i + 1 : ℕ) : ℝ)) * r + v * r = y - x := by
    rw [h.eq, h'.eq]
    push_cast
    ring
  calc |along F i u - along F j v|
      ≤ |along F i u - F (i + 1)| + |F (i + 1) - F j| + |F j - along F j v| :=
        (abs_sub_le _ (F j) _).trans (add_le_add_left (abs_sub_le _ _ _) _)
    _ ≤ (1 - u) * r + (j - (i + 1 : ℕ)) * r + v * r := by gcongr
    _ = y - x := hway
    _ ≤ |x - y| := by
      rw [abs_sub_comm]
      exact le_abs_self _

/-- What lies between two coordinates changes the value by no more than they differ. -/
theorem OnAxis.abs_along_sub_le (hr : 0 < r) (h : OnAxis o r x n i u) (h' : OnAxis o r y n j v)
    (hF : ∀ k, k + 1 < n → |F k - F (k + 1)| ≤ r) : |along F i u - along F j v| ≤ |x - y| := by
  rcases lt_trichotomy i j with hij | rfl | hji
  · exact h.abs_along_sub_le_of_lt h' hF hij
  · have e : along F i u - along F i v = (F i - F (i + 1)) * (v - u) := by
      simp only [along]
      ring
    have hway : x - y = r * (u - v) := by
      rw [h.eq, h'.eq]
      ring
    rw [e, hway, abs_mul, abs_mul, abs_sub_comm v u, abs_of_pos hr]
    exact mul_le_mul_of_nonneg_right (hF i h.lt) (abs_nonneg _)
  · rw [abs_sub_comm, abs_sub_comm x y]
    exact h'.abs_along_sub_le_of_lt h hF hji

end Axis

/-! ## Between two points -/

section Points

variable {f : DistanceField ℝ} {p q : Vec3 ℝ} {c d : Vec3 ℕ} {s t : Vec3 ℝ}

/-- The distances of neighbouring voxels differ by no more than the size of a voxel. -/
structure IsSteady (f : DistanceField ℝ) : Prop where
  le : ∀ {a b : Vec3 ℕ}, f.data.Within a → f.data.Within b → DistanceTransform.gap a b ≤ 1 →
    |f.data.getD a.x a.y a.z 0 - f.data.getD b.x b.y b.z 0| ≤ f.resolution

/-- The distance at a share of the way through a cell along each axis. -/
def meanAt (f : DistanceField ℝ) (c : Vec3 ℕ) (s : Vec3 ℝ) : ℝ :=
  along (fun i => along (fun j => along (fun k => f.data.getD i j k 0) c.z s.z) c.y s.y) c.x s.x

theorem interpolate_eq_meanAt (f : DistanceField ℝ) (p : Vec3 ℝ) :
    (f.interpolate p).1 = f.meanAt (f.cellOf p) (f.shareOf p) := by
  rw [interpolate_eq_mix]
  simp only [Corners.mix, cornerValue, corner, meanAt, along, Bool.toNat_false, Bool.toNat_true, add_zero]
  ring

/-- From one point to another along the first, the second and the third axis in turn. -/
theorem InCell.abs_meanAt_sub_le (hf : HasCells f) (hs : IsSteady f) (h : InCell f p c s)
    (h' : InCell f q d t) :
    |f.meanAt c s - f.meanAt d t| ≤ |p.x - q.x| + |p.y - q.y| + |p.z - q.z| := by
  have hx : |f.meanAt c s - f.meanAt ⟨d.x, c.y, c.z⟩ ⟨t.x, s.y, s.z⟩| ≤ |p.x - q.x| :=
    h.x.abs_along_sub_le hf.pos h'.x fun i hi => h.y.abs_along_sub_along_le fun j hj =>
      h.z.abs_along_sub_along_le fun k hk => hs.le (a := ⟨i, j, k⟩) (b := ⟨i + 1, j, k⟩)
        ⟨Nat.lt_of_succ_lt hi, hj, hk⟩ ⟨hi, hj, hk⟩ (DistanceTransform.gap_next_x i j k).le
  have hy : |f.meanAt ⟨d.x, c.y, c.z⟩ ⟨t.x, s.y, s.z⟩ - f.meanAt ⟨d.x, d.y, c.z⟩ ⟨t.x, t.y, s.z⟩| ≤ |p.y - q.y| :=
    h'.x.abs_along_sub_along_le fun i hi => h.y.abs_along_sub_le hf.pos h'.y fun j hj =>
      h.z.abs_along_sub_along_le fun k hk => hs.le (a := ⟨i, j, k⟩) (b := ⟨i, j + 1, k⟩)
        ⟨hi, Nat.lt_of_succ_lt hj, hk⟩ ⟨hi, hj, hk⟩ (DistanceTransform.gap_next_y i j k).le
  have hz : |f.meanAt ⟨d.x, d.y, c.z⟩ ⟨t.x, t.y, s.z⟩ - f.meanAt d t| ≤ |p.z - q.z| :=
    h'.x.abs_along_sub_along_le fun i hi => h'.y.abs_along_sub_along_le fun j hj =>
      h.z.abs_along_sub_le hf.pos h'.z fun k hk => hs.le (a := ⟨i, j, k⟩) (b := ⟨i, j, k + 1⟩)
        ⟨hi, hj, Nat.lt_of_succ_lt hk⟩ ⟨hi, hj, hk⟩ (DistanceTransform.gap_next_z i j k).le
  calc |f.meanAt c s - f.meanAt d t|
      ≤ _ := (abs_sub_le _ (f.meanAt ⟨d.x, d.y, c.z⟩ ⟨t.x, t.y, s.z⟩) _).trans
        (add_le_add_left (abs_sub_le _ (f.meanAt ⟨d.x, c.y, c.z⟩ ⟨t.x, s.y, s.z⟩) _) _)
    _ ≤ |p.x - q.x| + |p.y - q.y| + |p.z - q.z| := by gcongr

/-- The interpolated distance changes by no more than the coordinates of a point do. -/
theorem abs_interpolate_sub_le (hf : HasCells f) (hs : IsSteady f) (hp : InBox f p) (hq : InBox f q) :
    |(f.interpolate p).1 - (f.interpolate q).1| ≤ |p.x - q.x| + |p.y - q.y| + |p.z - q.z| := by
  rw [interpolate_eq_meanAt, interpolate_eq_meanAt]
  exact (inCell_cellOf hf hp).abs_meanAt_sub_le hf hs (inCell_cellOf hf hq)

end Points

/-! ## Fields of signed distances -/

section Signed

variable {g : Grid Bool} {r : ℝ}

/-- A grid of at least two voxels along each axis, some occupied and some free, has signed distances of
    at least half a voxel, which are negative at the occupied voxels only, and they have a field that
    changes between two points of the box by no more than their coordinates do. -/
theorem signed_steady (hg : 2 ≤ g.nx ∧ 2 ≤ g.ny ∧ 2 ≤ g.nz) (hocc : ∃ c, g.Holds c)
    (hfree : ∃ c, g.Within c ∧ ¬ g.Holds c) (hr : 0 < r) (origin : Vec3 ℝ) :
    (∀ c, g.Within c → ((DistanceTransform.signed g r).getD c.x c.y c.z 0 < 0 ↔ g.Holds c) ∧
      r / 2 ≤ |(DistanceTransform.signed g r).getD c.x c.y c.z 0|) ∧
    ∃ f, ofData (DistanceTransform.signed g r) origin r = .ok f ∧
      ∀ p q, f.isOutOfBounds p = false → f.isOutOfBounds q = false →
        |(f.sample p).1 - (f.sample q).1| ≤ |p.x - q.x| + |p.y - q.y| + |p.z - q.z| := by
  refine ⟨fun c hc => ⟨DistanceTransform.signed_neg_iff hr hocc hfree hc,
    DistanceTransform.half_le_abs_signed hr hocc hfree hc⟩, ?_⟩
  obtain ⟨f, hf⟩ : ∃ f, ofData (DistanceTransform.signed g r) origin r = .ok f :=
    FieldPlan.exists_ofData hg hr origin
  obtain ⟨-, hres, hdata, hpos, hx, hy, hz⟩ := FieldPlan.ofData_eq_ok hf
  have hcells : HasCells f := ⟨hres ▸ hpos, hdata ▸ hx, hdata ▸ hy, hdata ▸ hz⟩
  have hsteady : IsSteady f := by
    refine ⟨fun ha hb hab => ?_⟩
    rw [hdata] at ha hb ⊢
    rw [hres]
    exact DistanceTransform.abs_signed_sub_le hr.le hocc hfree ha hb hab
  refine ⟨f, hf, fun p q hp hq => ?_⟩
  rw [isOutOfBounds_eq_false_iff] at hp hq
  rw [sample_of_inBox hp, sample_of_inBox hq]
  exact abs_interpolate_sub_le hcells hsteady hp hq

/-- Two voxels along each axis, the first of all occupied. -/
def firstOccupied : Grid Bool := Grid.ofFn 2 2 2 fun i j k => i + j + k == 0

/-- The field of a grid whose first voxel is occupied. -/
theorem signed_steady_firstOccupied : firstOccupied.Holds ⟨0, 0, 0⟩ ∧ ¬ firstOccupied.Holds ⟨1, 1, 1⟩ ∧
    (DistanceTransform.signed firstOccupied (1 : ℝ)).getD 0 0 0 0 < 0 ∧
    ∃ f, ofData (DistanceTransform.signed firstOccupied (1 : ℝ)) ⟨0, 0, 0⟩ 1 = .ok f ∧
      ∀ p q, f.isOutOfBounds p = false → f.isOutOfBounds q = false →
        |(f.sample p).1 - (f.sample q).1| ≤ |p.x - q.x| + |p.y - q.y| + |p.z - q.z| := by
  have hfirst : firstOccupied.Holds ⟨0, 0, 0⟩ := ⟨⟨two_pos, two_pos, two_pos⟩, rfl⟩
  have hlast : ¬ firstOccupied.Holds ⟨1, 1, 1⟩ := fun h => Bool.false_ne_true h.2
  have hwithin : firstOccupied.Within ⟨1, 1, 1⟩ := ⟨one_lt_two, one_lt_two, one_lt_two⟩
  obtain ⟨hsign, hsteady⟩ := signed_steady ⟨le_rfl, le_rfl, le_rfl⟩ ⟨_, hfirst⟩ ⟨_, hwithin, hlast⟩
    (one_pos : (0 : ℝ) < 1) ⟨0, 0, 0⟩
  exact ⟨hfirst, hlast, (hsign _ hfirst.1).1.mpr hfirst, hsteady⟩

end Signed

end DistanceField

end Clearance
