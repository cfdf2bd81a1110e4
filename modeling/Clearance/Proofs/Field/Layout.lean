import Clearance.Proofs.Geometry.Bounds
import Clearance.Field.Layout

/-!
# The grid surrounds its box

In exact arithmetic, the first voxel centre lies before the box along every axis and the last one
behind it, whether the grid was made coarser or not.

* `Layout.Surrounds`: the centres of the outer layer lie outside of the box.
* `Layout.ofBounds_surrounds`: every layout of cells does.
-/

namespace Clearance.Layout

/-! ## One axis -/

section Axis

variable {lo hi pad r o bound : ℝ} {n : ℤ}

/-- Along an axis the first of `n` centres lies before an interval and the last one behind it. -/
structure SurroundsAxis (o r : ℝ) (n : ℤ) (lo hi : ℝ) : Prop where
  before : o < lo
  behind : hi < o + (n - 1) * r

/-- A count of voxels that falls short of a length by less than half a voxel is enough for a margin
    around it. -/
theorem surroundsAxis_of_count (hr : 0 < r) (hpad : 0 ≤ pad)
    (hn : (hi - lo + 2 * pad) / r - roundingSlack + 2 ≤ n) :
    SurroundsAxis (lo - pad - r / 2) r n lo hi := by
  have hslack : (roundingSlack : ℝ) = 1 / 10 ^ 9 := by
    simp only [roundingSlack, Exact.ofScientific_eq]
    norm_num
  have hlen : hi - lo + 2 * pad ≤ (n - 2 + 1 / 10 ^ 9) * r := by
    rw [← div_le_iff₀ hr]
    rw [hslack] at hn
    linarith
  constructor
  · linarith
  · have : (1 / 10 ^ 9 : ℝ) * r < 1 / 2 * r := mul_lt_mul_of_pos_right (by norm_num) hr
    nlinarith

theorem le_voxelCount (r length : ℝ) :
    length / r - roundingSlack + 2 ≤ (voxelCount r length : ℝ) := by
  have := Int.le_ceil (length / r - roundingSlack)
  simp only [voxelCount, Exact.ceilCount_eq]
  push_cast
  linarith

/-- A length of a whole number of voxels is not rounded up. -/
theorem voxelCount_of_whole {r length : ℝ} {k : ℤ} (h : length / r = k) : voxelCount r length = k + 2 := by
  have hceil : ⌈(k : ℝ) - roundingSlack⌉ = k := by
    rw [Int.ceil_eq_iff]
    simp only [roundingSlack, Exact.ofScientific_eq]
    constructor <;> norm_num
  rw [voxelCount, Exact.ceilCount_eq, h, hceil]

theorem le_capped {x : ℝ} {k : ℤ} (hk : bound = k) (hn : x ≤ n) (hx : x ≤ bound) :
    x ≤ capped bound n := by
  unfold capped
  split_ifs
  · rw [Exact.floor_eq, hk, Int.floor_intCast, ← hk]
    exact hx
  · exact hn

theorem capped_le {k : ℤ} (n : ℤ) : capped (k : ℝ) n ≤ k := by
  unfold capped
  split_ifs with h
  · rw [Exact.floor_eq, Int.floor_intCast]
  · rw [exceeds, Exact.lt_iff, Exact.ofInt_eq, not_lt] at h
    exact_mod_cast h

end Axis

/-! ## Margins -/

/-- A margin that no caller can make negative. -/
def Margin.IsNonneg : Margin ℝ → Prop
  | .length pad => 0 ≤ pad
  | .voxels _ => True

theorem isNonneg_ofPadding {padding : Option (Given ℝ)} {margin : Margin ℝ}
    (h : Margin.ofPadding padding = .ok margin) : margin.IsNonneg := by
  cases padding with
  | none =>
    obtain rfl := Except.ok.inj h
    trivial
  | some given =>
    obtain ⟨pad, -, h⟩ := bind_eq_ok.mp h
    obtain ⟨hneg, h⟩ := check_eq_ok.mp h
    obtain rfl := Except.ok.inj h
    rw [Exact.lt_iff, Exact.zero_eq] at hneg
    exact not_lt.mp hneg

theorem Margin.IsNonneg.at_nonneg {margin : Margin ℝ} (h : margin.IsNonneg) {r : ℝ} (hr : 0 ≤ r) :
    0 ≤ margin.at r := by
  cases margin with
  | length pad => exact h
  | voxels n =>
    show 0 ≤ ((n : ℤ) : ℝ) * r
    positivity

/-! ## Coarser grids -/

section Coarse

variable {span : Vec3 ℝ} {margin : Margin ℝ} {given : Given ℝ} {bound r : ℝ}

theorem le_maxCoord {v : Vec3 ℝ} {x : ℝ} (h : x ∈ v.toList) : x ≤ v.maxCoord := by
  simp only [Vec3.toList, List.mem_cons, List.not_mem_nil, or_false] at h
  simp only [Vec3.maxCoord, Exact.max_eq]
  rcases h with rfl | rfl | rfl
  · exact (le_max_left _ _).trans (le_max_left _ _)
  · exact (le_max_right _ _).trans (le_max_left _ _)
  · exact le_max_right _ _

/-- A quotient made a little greater is at least the quotient. -/
theorem le_of_coarsened {m free : ℝ} (hfree : 0 < free) (hr : 0 < r)
    (e : m / free * coarseningFactor = r) :
    m ≤ r * free := by
  have hfactor : (1 : ℝ) ≤ coarseningFactor := by
    simp only [coarseningFactor, Exact.one_eq, Exact.ofScientific_eq, le_add_iff_nonneg_right]
    positivity
  have hle : m / free ≤ r := by
    have hq : 0 < m / free := by
      by_contra hn
      nlinarith
    nlinarith
  exact (div_le_iff₀ hfree).mp hle

/-- At the coarse resolution, no length with its margin needs more than the greatest number of
    voxels less two. -/
theorem le_of_coarseResolution (h : coarseResolution span margin given bound = .ok r) (hr : 0 < r)
    (hbound : 2 ≤ bound) {length : ℝ} (hmem : length ∈ span.toList) :
    length + 2 * margin.at r ≤ r * (bound - 2) := by
  cases margin with
  | length pad =>
    have e := Except.ok.inj h
    have hlt : 0 < bound - 2 := by
      rcases hbound.lt_or_eq with hlt | heq
      · linarith
      · rw [← heq, show (2 : ℝ) - 2 = 0 by norm_num, div_zero, zero_mul] at e
        linarith
    have hle : length + 2 * pad ≤ (span.map (· + 2 * pad)).maxCoord :=
      le_maxCoord (List.mem_map_of_mem (f := (· + 2 * pad)) hmem)
    exact hle.trans (le_of_coarsened hlt hr e)
  | voxels n =>
    simp only [coarseResolution, Exact.le_iff, Exact.ofInt_eq, Exact.zero_eq] at h
    split_ifs at h with hfree
    have hspan := (le_maxCoord hmem).trans (le_of_coarsened (not_le.mp hfree) hr (Except.ok.inj h))
    have hat : (Margin.voxels n : Margin ℝ).at r = ((n : ℤ) : ℝ) * r := rfl
    rw [hat]
    linarith

end Coarse

/-! ## Layouts -/

/-- The centres of the outer layer of the grid lie outside of the box. -/
structure Surrounds (l : Layout ℝ) (lo hi : Vec3 ℝ) : Prop where
  x : SurroundsAxis l.origin.x l.resolution l.dims.x lo.x hi.x
  y : SurroundsAxis l.origin.y l.resolution l.dims.y lo.y hi.y
  z : SurroundsAxis l.origin.z l.resolution l.dims.z lo.z hi.z

section Bounds

variable {lo hi : Vec3 ℝ} {margin : Margin ℝ} {r bound : ℝ} {dims : Vec3 ℤ}

/-- Counts of voxels that are enough along every axis make a grid that surrounds the box. -/
theorem place_surrounds (hr : 0 < r) (hm : margin.IsNonneg)
    (hx : (hi.x - lo.x + 2 * margin.at r) / r - roundingSlack + 2 ≤ dims.x)
    (hy : (hi.y - lo.y + 2 * margin.at r) / r - roundingSlack + 2 ≤ dims.y)
    (hz : (hi.z - lo.z + 2 * margin.at r) / r - roundingSlack + 2 ≤ dims.z) :
    Surrounds (place lo margin r dims) lo hi := by
  have hpad := hm.at_nonneg hr.le
  have hhalf : ∀ t : ℝ, t - margin.at r - ((5 : ℕ) : ℝ) / 10 ^ 1 * r = t - margin.at r - r / 2 := by
    intro t
    push_cast
    ring
  constructor <;> simp only [place, Vec3.map, Exact.ofScientific_eq, hhalf] <;>
    exact surroundsAxis_of_count hr hpad ‹_›

/-- A count that is cut to the greatest number of voxels is still enough at the coarse
    resolution. -/
theorem le_capped_voxelCount (hr : 0 < r) {k : ℤ} (hk : bound = k) {length : ℝ}
    (h : length ≤ r * (bound - 2)) :
    length / r - roundingSlack + 2 ≤ (capped bound (voxelCount r length) : ℝ) := by
  have hslack : (0 : ℝ) ≤ roundingSlack := by
    simp only [roundingSlack, Exact.ofScientific_eq]
    positivity
  refine le_capped hk (le_voxelCount r length) ?_
  have : length / r ≤ bound - 2 := by
    rw [div_le_iff₀ hr]
    linarith
  linarith

/-- Whether it is made coarser or not, the grid surrounds the box. Where it is made coarser, the
    greatest number of voxels has to be an integer. -/
theorem ofBounds_surrounds {res : ℝ} {padding : Option (Given ℝ)} {given : Given ℝ} {l : Layout ℝ}
    {coarsened : Option (Event ℝ)}
    (h : ofBounds lo hi (.real res) padding (some given) = .ok (l, coarsened))
    (hint : coarsened.isSome = true → ∀ bound, given.compare? = .ok bound → ∃ k : ℤ, bound = k)
    (hpos : 0 < l.resolution) (hdims : 2 ≤ l.dims.x) : Surrounds l lo hi := by
  obtain ⟨fine, hfine, h⟩ := bind_eq_ok.mp h
  obtain ⟨margin, hmargin, h⟩ := bind_eq_ok.mp h
  have hm := isNonneg_ofPadding hmargin
  obtain ⟨bound, hbound, h⟩ := bind_eq_ok.mp h
  split_ifs at h with hfits
  · obtain ⟨rfl, rfl⟩ := Prod.mk.inj (Except.ok.inj h)
    exact place_surrounds hpos hm (le_voxelCount _ _) (le_voxelCount _ _) (le_voxelCount _ _)
  · obtain ⟨coarse, hcoarse, h⟩ := bind_eq_ok.mp h
    obtain ⟨rfl, rfl⟩ := Prod.mk.inj (Except.ok.inj h)
    obtain ⟨k, rfl⟩ := hint rfl bound (Fault.lift_eq_ok.mp hbound)
    have htwo : (2 : ℝ) ≤ k := by exact_mod_cast hdims.trans (capped_le _)
    have fits : ∀ length ∈ (hi - lo).toList, length + 2 * margin.at coarse ≤ coarse * (k - 2) :=
      fun length hmem => le_of_coarseResolution hcoarse hpos htwo hmem
    exact place_surrounds hpos hm
      (le_capped_voxelCount hpos rfl (fits (hi.x - lo.x) (by simp [Vec3.toList])))
      (le_capped_voxelCount hpos rfl (fits (hi.y - lo.y) (by simp [Vec3.toList])))
      (le_capped_voxelCount hpos rfl (fits (hi.z - lo.z) (by simp [Vec3.toList])))

end Bounds

end Clearance.Layout
