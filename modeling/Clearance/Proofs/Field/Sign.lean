import Clearance.Proofs.Field.Interpolation

/-!
# The sign of a field

What the interpolated distances of marked voxels say about the voxels around a point, if no voxel of
the outer layer of the grid is marked.

* `DistanceField.Measures`: the field holds the signed distances of marked voxels.
* `Measures.inBox_of_nonpos`, `Measures.exists_near_of_nonpos`: where the distance is not positive,
  the point lies in the box and a marked voxel is near.
* `Measures.neg_of_near`: where all voxels around are marked, the distance is negative.
-/

namespace Clearance.DistanceField

/-- The voxel lies in the outer layer of the grid. -/
def IsOuter (g : Grid Bool) (c : Vec3 ℕ) : Prop :=
  c.x = 0 ∨ c.x + 1 = g.nx ∨ c.y = 0 ∨ c.y + 1 = g.ny ∨ c.z = 0 ∨ c.z + 1 = g.nz

/-- The field holds the signed distances of the marked voxels of a grid. Some voxel is marked, but
    none of the outer layer. -/
structure Measures (f : DistanceField ℝ) (g : Grid Bool) : Prop extends HasCells f where
  data : f.data = DistanceTransform.signed g f.resolution
  occupied : ∃ c, g.Holds c
  outer : ∀ c, g.Within c → IsOuter g c → ¬ g.Holds c

namespace Measures

variable {f : DistanceField ℝ} {g : Grid Bool} {p : Vec3 ℝ} {c : Vec3 ℕ} {s : Vec3 ℝ}

theorem within_iff (h : Measures f g) (b : Vec3 ℕ) : f.data.Within b ↔ g.Within b := by
  rw [h.data]
  rfl

theorem exists_free (h : Measures f g) : ∃ c, g.Within c ∧ ¬ g.Holds c := by
  obtain ⟨b, hb⟩ := h.occupied
  have hw : g.Within ⟨0, b.y, b.z⟩ := ⟨Nat.zero_lt_of_lt hb.1.1, hb.1.2⟩
  exact ⟨_, hw, h.outer _ hw (.inl rfl)⟩

/-- The corners near a point are free around it if no marked voxel is within the size of a voxel. -/
theorem freeAround (h : Measures f g) (hc : InCell f p c s)
    (hfree : ∀ b, g.Holds b → f.resolution < (f.centerOf b - p).norm) :
    Corners.FreeAround (fun a b d => f.cornerValue c a b d / f.resolution) s.x s.y s.z := by
  refine ⟨fun a b d hn a' b' d' => ?_⟩
  have hle : (f.centerOf (corner c a b d) - p).norm ≤ f.resolution := by
    rw [Vec3.norm_le_iff h.pos.le, hc.normSq_center_sub]
    have := sq_nonneg f.resolution
    unfold Corners.Near at hn
    nlinarith
  have hnot : ¬ g.Holds (corner c a b d) := fun hh => absurd hle (not_le.mpr (hfree _ hh))
  have hv := DistanceTransform.le_signed h.pos.le h.occupied
    ((h.within_iff _).mp (hc.within_corner a' b' d'))
    ((h.within_iff _).mp (hc.within_corner a b d)) hnot
  rw [gap_corner, ← h.data] at hv
  rw [le_div_iff₀ h.pos]
  exact hv

/-- Inside of the box of the centres, the distance is positive if no marked voxel is near. -/
theorem interpolate_pos (h : Measures f g) (hp : InBox f p)
    (hfree : ∀ b, g.Holds b → f.resolution < (f.centerOf b - p).norm) :
    0 < (f.interpolate p).1 := by
  have hc := inCell_cellOf h.toHasCells hp
  have hpos :=
    (h.freeAround hc hfree).mix_pos hc.x.nonneg hc.x.le_one hc.y.nonneg hc.y.le_one hc.z.nonneg
    hc.z.le_one
  have hdiv : ∀ (V : Bool → Bool → Bool → ℝ) (u v w r : ℝ),
      Corners.mix (fun a b d => V a b d / r) u v w = Corners.mix V u v w / r := by
    intro V u v w r
    unfold Corners.mix
    ring
  rw [hdiv, ← interpolate_eq_mix] at hpos
  exact (div_pos_iff_of_pos_right h.pos).mp hpos

/-- On a face of the box of the centres, the distance is at least half a voxel. -/
theorem half_le_interpolate (h : Measures f g) (hp : InBox f p)
    (hface : (p.x = f.origin.x ∨ p.x = f.upper.x) ∨ (p.y = f.origin.y ∨ p.y = f.upper.y) ∨
      (p.z = f.origin.z ∨ p.z = f.upper.z)) : f.resolution / 2 ≤ (f.interpolate p).1 := by
  have hc := inCell_cellOf h.toHasCells hp
  have hdims : f.data.nx = g.nx ∧ f.data.ny = g.ny ∧ f.data.nz = g.nz := by
    rw [h.data]
    exact ⟨rfl, rfl, rfl⟩
  rw [interpolate_eq_mix]
  refine Corners.le_mix hc.x.nonneg hc.x.le_one hc.y.nonneg hc.y.le_one hc.z.nonneg hc.z.le_one ?_
  intro a b d ha hb hd
  have hw := (h.within_iff _).mp (hc.within_corner a b d)
  have houter : IsOuter g (corner (f.cellOf p) a b d) := by
    rcases hface with hx | hy | hz
    · have := hc.x.outer_of_face h.pos hx ha
      rw [hdims.1] at this
      exact this.imp id .inl
    · have := hc.y.outer_of_face h.pos hy hb
      rw [hdims.2.1] at this
      exact .inr (.inr (this.imp id .inl))
    · have := hc.z.outer_of_face h.pos hz hd
      rw [hdims.2.2] at this
      exact .inr (.inr (.inr (.inr this)))
  have := DistanceTransform.signed_of_free h.pos.le h.occupied hw (h.outer _ hw houter)
  rw [← h.data] at this
  exact this

end Measures

/-! ## Points outside of the box -/

section Sample

variable {f : DistanceField ℝ} {p : Vec3 ℝ}

theorem sample_fst (f : DistanceField ℝ) (p : Vec3 ℝ) : (f.sample p).1 =
    (f.interpolate (p.clip f.origin f.upper)).1 + (p - p.clip f.origin f.upper).norm := rfl

theorem clip_def (p lo hi : Vec3 ℝ) : p.clip lo hi =
    ⟨min (max p.x lo.x) hi.x, min (max p.y lo.y) hi.y, min (max p.z lo.z) hi.z⟩ := by
  simp [Vec3.clip, Vec3.min, Vec3.max, Vec3.zipWith]

theorem origin_le_upper (hf : HasCells f) :
    f.origin.x ≤ f.upper.x ∧ f.origin.y ≤ f.upper.y ∧ f.origin.z ≤ f.upper.z := by
  have hpos := hf.pos.le
  simp only [upper, center, coord_eq, le_add_iff_nonneg_right]
  exact ⟨by positivity, by positivity, by positivity⟩

theorem inBox_clip (hf : HasCells f) (p : Vec3 ℝ) : InBox f (p.clip f.origin f.upper) := by
  obtain ⟨hx, hy, hz⟩ := origin_le_upper hf
  rw [clip_def]
  exact ⟨le_min (le_max_right _ _) hx, le_min (le_max_right _ _) hy, le_min (le_max_right _ _) hz,
    min_le_right _ _, min_le_right _ _, min_le_right _ _⟩

theorem clip_eq_self (hp : InBox f p) : p.clip f.origin f.upper = p := by
  rw [clip_def, max_eq_left hp.lowX, max_eq_left hp.lowY, max_eq_left hp.lowZ, min_eq_left hp.highX,
    min_eq_left hp.highY, min_eq_left hp.highZ]

/-- Inside of the box, nothing is added to the interpolated distance. -/
theorem sample_of_inBox (hp : InBox f p) : (f.sample p).1 = (f.interpolate p).1 := by
  rw [sample_fst, clip_eq_self hp, Vec3.norm_sub_self, add_zero]

/-- A coordinate that is moved ends up at an end. -/
theorem clip_eq_end {x lo hi : ℝ} (h : lo ≤ hi) (hx : ¬ (lo ≤ x ∧ x ≤ hi)) :
    min (max x lo) hi = lo ∨ min (max x lo) hi = hi := by
  rcases lt_or_ge x lo with hlt | hge
  · left
    rw [max_eq_right hlt.le, min_eq_left h]
  · right
    have : hi < x := by
      by_contra hn
      exact hx ⟨hge, not_lt.mp hn⟩
    rw [max_eq_left hge, min_eq_right this.le]

/-- A point outside of the box is moved to a face. -/
theorem clip_on_face (hf : HasCells f) (hp : ¬ InBox f p) :
    let q := p.clip f.origin f.upper
    (q.x = f.origin.x ∨ q.x = f.upper.x) ∨ (q.y = f.origin.y ∨ q.y = f.upper.y) ∨
      (q.z = f.origin.z ∨ q.z = f.upper.z) := by
  obtain ⟨hx, hy, hz⟩ := origin_le_upper hf
  intro q
  simp only [q, clip_def]
  by_cases h1 : f.origin.x ≤ p.x ∧ p.x ≤ f.upper.x
  · by_cases h2 : f.origin.y ≤ p.y ∧ p.y ≤ f.upper.y
    · refine .inr (.inr (clip_eq_end hz fun h3 => hp ?_))
      exact ⟨h1.1, h2.1, h3.1, h1.2, h2.2, h3.2⟩
    · exact .inr (.inl (clip_eq_end hy h2))
  · exact .inl (clip_eq_end hx h1)

end Sample

/-! ## The sign -/

namespace Measures

variable {f : DistanceField ℝ} {g : Grid Bool} {p : Vec3 ℝ}

/-- Where the distance is not positive, the point lies in the box. -/
theorem inBox_of_nonpos (h : Measures f g) (hp : (f.sample p).1 ≤ 0) : InBox f p := by
  by_contra hin
  have hhalf := h.half_le_interpolate (inBox_clip h.toHasCells p) (clip_on_face h.toHasCells hin)
  have haway := Vec3.norm_nonneg (p - p.clip f.origin f.upper)
  have hpos := h.pos
  rw [sample_fst] at hp
  linarith

/-- Where the distance is not positive, a marked voxel is within the size of a voxel. -/
theorem exists_near_of_nonpos (h : Measures f g) (hp : (f.sample p).1 ≤ 0) :
    ∃ b, g.Holds b ∧ (f.centerOf b - p).norm ≤ f.resolution := by
  have hin := h.inBox_of_nonpos hp
  by_contra hn
  have hfar : ∀ b, g.Holds b → f.resolution < (f.centerOf b - p).norm :=
    fun b hb => not_le.mp fun hle => hn ⟨b, hb, hle⟩
  rw [sample_of_inBox hin] at hp
  exact absurd (h.interpolate_pos hin hfar) (not_lt.mpr hp)

/-- Where all voxels around are marked, the distance is negative. -/
theorem neg_of_near (h : Measures f g) (hin : InBox f p)
    (hp : ∀ b, g.Within b → (f.centerOf b - p).norm ≤ √3 * f.resolution → g.Holds b) :
    (f.sample p).1 < 0 := by
  have hc := inCell_cellOf h.toHasCells hin
  have hpos := h.pos
  have hle : ∀ a b d, f.cornerValue (f.cellOf p) a b d ≤ -(f.resolution / 2) := by
    intro a b d
    have hw := (h.within_iff _).mp (hc.within_corner a b d)
    have hnear : (f.centerOf (corner (f.cellOf p) a b d) - p).norm ≤ √3 * f.resolution := by
      have hoff : ∀ (e : Bool) {t : ℝ}, 0 ≤ t → t ≤ 1 → Corners.off e t ^ 2 ≤ 1 := by
        intro e t h0 h1
        cases e <;> simp only [Corners.off, Bool.false_eq_true, ↓reduceIte] <;> nlinarith
      have h1 := hoff a hc.x.nonneg hc.x.le_one
      have h2 := hoff b hc.y.nonneg hc.y.le_one
      have h3 := hoff d hc.z.nonneg hc.z.le_one
      rw [Vec3.norm_le_iff (by positivity), hc.normSq_center_sub, mul_pow,
        Real.sq_sqrt (by norm_num)]
      exact mul_le_mul_of_nonneg_right (by linarith) (sq_nonneg _)
    have := DistanceTransform.signed_of_occupied h.pos.le h.exists_free (hp _ hw hnear)
    rw [← h.data] at this
    exact this
  have hmix := hc.mix_le (W := fun _ _ _ => -(f.resolution / 2)) hle
  rw [Corners.mix_const] at hmix
  rw [sample_of_inBox hin, interpolate_eq_mix]
  linarith

end Measures

end Clearance.DistanceField
