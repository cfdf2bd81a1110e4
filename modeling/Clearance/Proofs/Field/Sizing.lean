import Clearance.Proofs.Field.Layout

/-!
# How large a grid is

In exact arithmetic, a box has a layout for every resolution, every margin and every greatest number
of voxels that leaves room for something beside the margin. The grid covers the box with its margin, up
to the slack that keeps whole numbers of voxels from being rounded up, and the voxels are made larger
exactly if they would be too many otherwise. A coarser grid is never cut: the resolution is chosen so
that its counts are small enough by themselves.

* `Layout.Pads`: the margins that a padding asks for.
* `Layout.FitsAxis`, `Layout.Fits`: what the numbers of voxels are to the box.
* `Layout.coarseResolution_eq`, `Layout.lt_of_coarseResolution`: the coarser resolution.
* `Layout.exists_ofBounds`: every box has a layout, and it fits.
-/

namespace Clearance.Layout

/-! ## Counts along one axis -/

section Axis

variable {r length lo hi pad : ℝ} {k : ℤ}

theorem roundingSlack_eq : (roundingSlack : ℝ) = 1 / 10 ^ 9 := by
  simp only [roundingSlack, Exact.ofScientific_eq]
  norm_num

theorem voxelCount_eq (r length : ℝ) : voxelCount r length = ⌈length / r - 1 / 10 ^ 9⌉ + 2 := by
  rw [voxelCount, Exact.ceilCount_eq, roundingSlack_eq]

theorem two_le_voxelCount (hr : 0 < r) (hlength : 0 ≤ length) : 2 ≤ voxelCount r length := by
  have hceil : -1 < ⌈length / r - 1 / 10 ^ 9⌉ := by
    rw [Int.lt_ceil]
    have := div_nonneg hlength hr.le
    push_cast
    linarith
  rw [voxelCount_eq]
  omega

/-- A length that needs more than `k` voxels is longer than what lies between the outer ones of `k`. -/
theorem lt_of_lt_voxelCount (hr : 0 < r) (h : k < voxelCount r length) : (k - 2) * r < length := by
  rw [voxelCount_eq, ← sub_lt_iff_lt_add, Int.lt_ceil] at h
  push_cast at h
  rw [← lt_div_iff₀ hr]
  linarith

theorem voxelCount_le (hr : 0 < r) (h : length ≤ r * (k - 2)) : voxelCount r length ≤ k := by
  have hle : length / r ≤ k - 2 := by
    rw [div_le_iff₀ hr]
    linarith
  rw [voxelCount_eq, ← le_sub_iff_add_le, Int.ceil_le]
  push_cast
  linarith

theorem exceeds_iff {n : ℤ} : exceeds (k : ℝ) n = true ↔ k < n := by
  rw [exceeds, Exact.lt_iff, Exact.ofInt_eq, Int.cast_lt]

theorem capped_of_le {n : ℤ} (h : n ≤ k) : capped (k : ℝ) n = n :=
  if_neg fun he => not_lt.mpr h (exceeds_iff.mp he)

/-- What the `n` voxels of size `r` from `o` on along an axis are to an interval with a margin around it.
    Their number is what the length asks for, at least two, and within the bound if there is one; the first
    centre lies half a voxel before the margin, and the last one as far behind it, up to the slack. -/
structure FitsAxis (o r : ℝ) (n : ℤ) (lo hi pad : ℝ) (bound : Option ℤ) : Prop where
  two_le : 2 ≤ n
  le_bound : ∀ k ∈ bound, n ≤ k
  count : n = ⌈(hi - lo + 2 * pad) / r - 1 / 10 ^ 9⌉ + 2
  first : o = lo - pad - r / 2
  last : hi + pad + (1 / 2 - 1 / 10 ^ 9) * r ≤ o + (n - 1) * r

/-- A number of voxels that is counted and not cut fits. -/
theorem fitsAxis_voxelCount (hr : 0 < r) (hpad : 0 ≤ pad) (hbox : lo ≤ hi) {bound : Option ℤ}
    (hbound : ∀ k ∈ bound, voxelCount r (hi - lo + 2 * pad) ≤ k) :
    FitsAxis (lo - pad - r / 2) r (voxelCount r (hi - lo + 2 * pad)) lo hi pad bound where
  two_le := two_le_voxelCount hr (by linarith)
  le_bound := hbound
  count := voxelCount_eq _ _
  first := rfl
  last := by
    have hcount := le_voxelCount r (hi - lo + 2 * pad)
    rw [roundingSlack_eq] at hcount
    have hlength : hi - lo + 2 * pad ≤ (voxelCount r (hi - lo + 2 * pad) - 2 + 1 / 10 ^ 9) * r := by
      rw [← div_le_iff₀ hr]
      linarith
    linarith

end Axis

/-! ## Margins -/

/-- A padding that may be asked for, with the margin that it gives at a resolution and the number of voxels
    by which the margin lengthens an axis whatever the resolution is. -/
inductive Pads : Option (Given ℝ) → (ℝ → ℝ) → ℤ → Prop
  /-- Without a padding the margin is counted in voxels, on both sides. -/
  | standard : Pads none (fun r => (Settings.paddingVoxels : ℝ) * r) (2 * Settings.paddingVoxels)
  /-- A padding that is not negative is a length. -/
  | length {given : Given ℝ} {pad : ℝ} (hgiven : given.toScalar = .ok pad) (hpad : 0 ≤ pad) :
    Pads (some given) (fun _ => pad) 0

/-- The part of a length and its margin that does not grow with the voxels. -/
noncomputable def Margin.fixed : Margin ℝ → ℝ → ℝ
  | .length pad, t => t + 2 * pad
  | .voxels _, t => t

/-- How many voxels the margin takes on both sides, whatever the resolution is. -/
def Margin.taken : Margin ℝ → ℤ
  | .length _ => 0
  | .voxels n => 2 * n

theorem Margin.taken_nonneg (margin : Margin ℝ) : 0 ≤ margin.taken := by
  cases margin with
  | length pad => exact le_rfl
  | voxels n => exact mul_nonneg zero_le_two (Int.natCast_nonneg n)

theorem Margin.length_add (margin : Margin ℝ) (length r : ℝ) :
    length + 2 * margin.at r = margin.fixed length + margin.taken * r := by
  cases margin with
  | length pad => simp [Margin.at, Margin.fixed, Margin.taken]
  | voxels n =>
    simp only [Margin.at, Margin.fixed, Margin.taken, Exact.ofInt_eq]
    push_cast
    ring

/-- A padding that may be asked for is accepted. -/
theorem Pads.exists_margin {padding : Option (Given ℝ)} {pad : ℝ → ℝ} {taken : ℤ} (h : Pads padding pad taken) :
    ∃ margin, Margin.ofPadding padding = .ok margin ∧ (fun r => margin.at r) = pad ∧ margin.taken = taken := by
  cases h with
  | standard => exact ⟨.voxels Settings.paddingVoxels, rfl, rfl, rfl⟩
  | @length given p hgiven hpad =>
    refine ⟨.length p, bind_eq_ok.mpr ⟨p, Fault.lift_eq_ok.mpr hgiven, check_eq_ok.mpr ⟨?_, rfl⟩⟩, rfl, rfl⟩
    rw [Exact.lt_iff, Exact.zero_eq]
    exact not_lt.mpr hpad

/-! ## The coarser resolution -/

section Coarse

variable {span : Vec3 ℝ} {margin : Margin ℝ} {given : Given ℝ} {k : ℤ} {fine coarse : ℝ}

/-- With room for more than the margin there is a coarser resolution: the longest axis, divided by the
    voxels that are left for it, and a little more. -/
theorem coarseResolution_eq (hk : 2 + margin.taken < k) : coarseResolution span margin given (k : ℝ) =
    .ok ((span.map margin.fixed).maxCoord / (k - 2 - margin.taken) * coarseningFactor) := by
  cases margin with
  | length pad =>
    have hfixed : span.map (Margin.fixed (.length pad)) = span.map (· + 2 * pad) := rfl
    simp [coarseResolution, Margin.taken, hfixed]
  | voxels n =>
    have hroom : (0 : ℝ) < k - 2 - 2 * (n : ℤ) := by
      have hk' : 2 + 2 * (n : ℤ) < k := hk
      have hcast : ((2 + 2 * (n : ℤ) : ℤ) : ℝ) < k := by exact_mod_cast hk'
      push_cast at hcast ⊢
      linarith
    have hfixed : span.map (Margin.fixed (.voxels n)) = span := rfl
    simp only [coarseResolution, Exact.ofInt_eq, Exact.le_iff, Exact.zero_eq, if_neg (not_le.mpr hroom),
      Margin.taken, hfixed]
    push_cast
    rfl

/-- If an axis needs more voxels than there may be, the coarser resolution is strictly coarser. -/
theorem lt_of_coarseResolution (hfine : 0 < fine) (hk : 2 + margin.taken < k) {length : ℝ}
    (hmem : length ∈ span.toList) (hlong : k < voxelCount fine (length + 2 * margin.at fine))
    (h : coarseResolution span margin given (k : ℝ) = .ok coarse) : fine < coarse := by
  have hroom : (0 : ℝ) < k - 2 - margin.taken := by
    have hcast : ((2 + margin.taken : ℤ) : ℝ) < k := by exact_mod_cast hk
    push_cast at hcast
    linarith
  have hlong := lt_of_lt_voxelCount hfine hlong
  rw [margin.length_add] at hlong
  have hmax : margin.fixed length ≤ (span.map margin.fixed).maxCoord :=
    le_maxCoord (List.mem_map_of_mem (f := margin.fixed) hmem)
  have hquotient : fine < (span.map margin.fixed).maxCoord / (k - 2 - margin.taken) := by
    rw [lt_div_iff₀ hroom]
    linarith
  have hfactor : (1 : ℝ) ≤ coarseningFactor := by
    simp only [coarseningFactor, Exact.one_eq, Exact.ofScientific_eq, le_add_iff_nonneg_right]
    positivity
  obtain rfl := Except.ok.inj ((coarseResolution_eq hk).symm.trans h)
  exact hquotient.trans_le (le_mul_of_one_le_right (hfine.trans hquotient).le hfactor)

end Coarse

/-! ## Layouts -/

/-- What a layout is to a box with a margin: its voxels fit along every axis. -/
structure Fits (l : Layout ℝ) (lo hi : Vec3 ℝ) (pad : ℝ) (bound : Option ℤ) : Prop where
  x : FitsAxis l.origin.x l.resolution l.dims.x lo.x hi.x pad bound
  y : FitsAxis l.origin.y l.resolution l.dims.y lo.y hi.y pad bound
  z : FitsAxis l.origin.z l.resolution l.dims.z lo.z hi.z pad bound

section Bounds

variable {lo hi : Vec3 ℝ} {margin : Margin ℝ} {r fine : ℝ} {k : ℤ}

/-- The layout with counts that no bound cuts fits. -/
theorem fits_place (hr : 0 < r) (hpad : 0 ≤ margin.at r) (hbox : lo.Below hi) {bound : Option ℤ}
    (hbound : ∀ k ∈ bound, ∀ length ∈ (hi - lo).toList, voxelCount r (length + 2 * margin.at r) ≤ k) :
    Fits (place lo margin r (voxelCounts (hi - lo) (margin.at r) r)) lo hi (margin.at r) bound := by
  have horigin : (place lo margin r (voxelCounts (hi - lo) (margin.at r) r)).origin =
      ⟨lo.x - margin.at r - r / 2, lo.y - margin.at r - r / 2, lo.z - margin.at r - r / 2⟩ := by
    simp only [place, Vec3.map, Exact.ofScientific_eq, Vec3.mk.injEq]
    push_cast
    refine ⟨?_, ?_, ?_⟩ <;> ring
  constructor <;> rw [horigin]
  · exact fitsAxis_voxelCount hr hpad hbox.x fun k hk => hbound k hk _ (by simp [Vec3.toList])
  · exact fitsAxis_voxelCount hr hpad hbox.y fun k hk => hbound k hk _ (by simp [Vec3.toList])
  · exact fitsAxis_voxelCount hr hpad hbox.z fun k hk => hbound k hk _ (by simp [Vec3.toList])

theorem any_exceeds_iff {span : Vec3 ℝ} {pad : ℝ} : (voxelCounts span pad r).any (exceeds (k : ℝ)) = true ↔
    ∃ length ∈ span.toList, k < voxelCount r (length + 2 * pad) := by
  simp [voxelCounts, Vec3.any, Vec3.map, Vec3.toList, exceeds_iff, or_assoc]

/-- Counts that are within the bound are not cut. -/
theorem map_capped {span : Vec3 ℝ} {pad : ℝ}
    (h : ∀ length ∈ span.toList, voxelCount r (length + 2 * pad) ≤ k) :
    (voxelCounts span pad r).map (capped (k : ℝ)) = voxelCounts span pad r := by
  simp only [voxelCounts, Vec3.map, Vec3.mk.injEq]
  exact ⟨capped_of_le (h _ (by simp [Vec3.toList])), capped_of_le (h _ (by simp [Vec3.toList])),
    capped_of_le (h _ (by simp [Vec3.toList]))⟩

/-- Where every axis has few enough voxels, nothing is made coarser. -/
theorem ofBounds_of_few {resolution : Given ℝ} {padding : Option (Given ℝ)} {bound : Option ℤ}
    (hresolution : resolution.compare? = .ok fine) (hmargin : Margin.ofPadding padding = .ok margin)
    (hfew : ∀ k ∈ bound, ∀ length ∈ (hi - lo).toList, voxelCount fine (length + 2 * margin.at fine) ≤ k) :
    ofBounds lo hi resolution padding (bound.map Given.int) =
      .ok (place lo margin fine (voxelCounts (hi - lo) (margin.at fine) fine), none) := by
  refine bind_eq_ok.mpr ⟨fine, Fault.lift_eq_ok.mpr hresolution, bind_eq_ok.mpr ⟨margin, hmargin, ?_⟩⟩
  cases bound with
  | none => rfl
  | some k =>
    refine bind_eq_ok.mpr ⟨k, Fault.lift_eq_ok.mpr (if_pos Exact.isFinite_eq), if_pos ?_⟩
    rw [Bool.not_eq_true', ← Bool.not_eq_true, any_exceeds_iff]
    rintro ⟨length, hmem, hmany⟩
    exact absurd hmany (not_lt.mpr (hfew k rfl length hmem))

/-- Where some axis would have too many voxels, the grid is made coarser, and then every axis has few enough
    without a cut. -/
theorem exists_ofBounds_of_many {resolution : Given ℝ} {padding : Option (Given ℝ)}
    (hresolution : resolution.compare? = .ok fine) (hfine : 0 < fine)
    (hmargin : Margin.ofPadding padding = .ok margin) (hroom : 2 + margin.taken < k)
    (hmany : ∃ length ∈ (hi - lo).toList, k < voxelCount fine (length + 2 * margin.at fine)) :
    ∃ coarse, fine < coarse ∧
      (∀ length ∈ (hi - lo).toList, voxelCount coarse (length + 2 * margin.at coarse) ≤ k) ∧
      ofBounds lo hi resolution padding (some (.int k)) =
        .ok (place lo margin coarse (voxelCounts (hi - lo) (margin.at coarse) coarse),
          some (.coarsened (voxelCounts (hi - lo) (margin.at fine) fine) (.int k) resolution coarse)) := by
  obtain ⟨length, hmem, hlong⟩ := hmany
  obtain ⟨coarse, hcoarse⟩ : ∃ coarse, coarseResolution (hi - lo) margin (.int k) (k : ℝ) = .ok coarse :=
    ⟨_, coarseResolution_eq hroom⟩
  have hlt := lt_of_coarseResolution hfine hroom hmem hlong hcoarse
  have htwo : (2 : ℝ) ≤ k := by
    have := margin.taken_nonneg
    exact_mod_cast (by omega : 2 ≤ k)
  have hfew : ∀ length ∈ (hi - lo).toList, voxelCount coarse (length + 2 * margin.at coarse) ≤ k :=
    fun length hmem =>
      voxelCount_le (hfine.trans hlt) (le_of_coarseResolution hcoarse (hfine.trans hlt) htwo hmem)
  refine ⟨coarse, hlt, hfew, bind_eq_ok.mpr ⟨fine, Fault.lift_eq_ok.mpr hresolution,
    bind_eq_ok.mpr ⟨margin, hmargin, bind_eq_ok.mpr ⟨k, Fault.lift_eq_ok.mpr (if_pos Exact.isFinite_eq), ?_⟩⟩⟩⟩
  rw [if_neg, ← map_capped hfew]
  · exact bind_eq_ok.mpr ⟨coarse, hcoarse, rfl⟩
  · rw [Bool.not_eq_true', Bool.not_eq_false]
    exact any_exceeds_iff.mpr ⟨length, hmem, hlong⟩

/-- Every box has a layout at every positive resolution, with every padding that may be asked for and every
    greatest number of voxels that leaves room beside the margin. The resolution is the one asked for or a
    coarser one, and coarser exactly if some axis would need more voxels than the greatest number; the voxels
    fit the box with its margin at that resolution. -/
theorem exists_ofBounds {resolution : Given ℝ} {padding : Option (Given ℝ)} {pad : ℝ → ℝ} {taken : ℤ}
    {bound : Option ℤ} (hbox : lo.Below hi) (hresolution : resolution.compare? = .ok fine) (hfine : 0 < fine)
    (hpads : Pads padding pad taken) (hbound : ∀ k ∈ bound, 2 + taken < k) :
    ∃ l event, ofBounds lo hi resolution padding (bound.map Given.int) = .ok (l, event) ∧
      fine ≤ l.resolution ∧
      (fine < l.resolution ↔
        ∃ k ∈ bound, ∃ length ∈ (hi - lo).toList, k < ⌈(length + 2 * pad fine) / fine - 1 / 10 ^ 9⌉ + 2) ∧
      Fits l lo hi (pad l.resolution) bound := by
  obtain ⟨margin, hmargin, rfl, rfl⟩ := hpads.exists_margin
  have hpad : ∀ {r : ℝ}, 0 < r → 0 ≤ margin.at r := fun hr => (isNonneg_ofPadding hmargin).at_nonneg hr.le
  simp only [← voxelCount_eq]
  by_cases hmany : ∃ k ∈ bound, ∃ length ∈ (hi - lo).toList, k < voxelCount fine (length + 2 * margin.at fine)
  · obtain ⟨k, hk, hlong⟩ := hmany
    obtain rfl := Option.mem_def.mp hk
    obtain ⟨coarse, hlt, hfew, hrun⟩ :=
      exists_ofBounds_of_many hresolution hfine hmargin (hbound k rfl) hlong
    refine ⟨_, _, hrun, hlt.le, ⟨fun _ => ⟨k, rfl, hlong⟩, fun _ => hlt⟩, ?_⟩
    refine fits_place (hfine.trans hlt) (hpad (hfine.trans hlt)) hbox fun k' hk' => ?_
    obtain rfl := Option.some.inj hk'
    exact hfew
  · have hfew : ∀ k ∈ bound, ∀ length ∈ (hi - lo).toList, voxelCount fine (length + 2 * margin.at fine) ≤ k :=
      fun k hk length hmem => not_lt.mp fun hlong => hmany ⟨k, hk, length, hmem, hlong⟩
    exact ⟨_, none, ofBounds_of_few hresolution hmargin hfew, le_rfl,
      ⟨fun h => absurd h (lt_irrefl fine), fun h => absurd h hmany⟩, fits_place hfine (hpad hfine) hbox hfew⟩

/-- A cube of eight units, with the standard margin of four voxels on each side: at one unit a voxel there
    would be 18 of them along each axis, so that with a greatest number of 12 the grid is made coarser. -/
theorem exists_ofBounds_cube : (⟨-4, -4, -4⟩ : Vec3 ℝ).Below ⟨4, 4, 4⟩ ∧ Pads none (fun r => 4 * r) 8 ∧
    ∃ l event, ofBounds (⟨-4, -4, -4⟩ : Vec3 ℝ) ⟨4, 4, 4⟩ (.real 1) none (some (.int 12)) = .ok (l, event) ∧
      1 < l.resolution ∧ Fits l ⟨-4, -4, -4⟩ ⟨4, 4, 4⟩ (4 * l.resolution) (some 12) := by
  have hbox : (⟨-4, -4, -4⟩ : Vec3 ℝ).Below ⟨4, 4, 4⟩ := by constructor <;> norm_num
  have hpads : Pads none (fun r => 4 * r) 8 := by
    have h := Pads.standard
    norm_num [Settings.paddingVoxels] at h
    exact h
  have hbound : ∀ k ∈ some (12 : ℤ), 2 + 8 < k := by simp
  obtain ⟨l, event, hrun, -, hcoarser, hfits⟩ := exists_ofBounds hbox
    (show (Given.real (1 : ℝ)).compare? = .ok 1 from rfl) one_pos hpads hbound
  refine ⟨hbox, hpads, l, event, hrun, hcoarser.mpr ⟨12, rfl, 8, by norm_num [Vec3.toList], ?_⟩, hfits⟩
  rw [← voxelCount_eq, voxelCount_of_whole (k := 16) (by norm_num)]
  norm_num

end Bounds

end Clearance.Layout
