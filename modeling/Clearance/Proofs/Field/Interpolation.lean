import Clearance.Proofs.Field.Corners
import Clearance.Proofs.Geometry.Rigid
import Clearance.Proofs.Field.DistanceTransform
import Clearance.Field.Basic

/-!
# Interpolation in exact arithmetic

A point of the box of the voxel centres lies in a cell, and the interpolated distance is the mean
over the corners of the cell by the shares of the point.

* `DistanceField.onAxis_cell`: the cell of a coordinate and its share.
* `DistanceField.InCell`, `DistanceField.interpolate_eq_mix`: the cell of a point, and the mean over
  its corners.
* `DistanceField.InCell.normSq_center_sub`: how far the corners are from the point.
-/

namespace Clearance.DistanceField

/-! ## One axis -/

section Axis

variable {o r x u : ℝ} {n i : ℕ}

@[simp] theorem coord_eq (o r : ℝ) (i : ℕ) : coord o r i = o + i * r := by
  simp [coord]

/-- A coordinate lies between the voxels `i` and `i + 1` of an axis, at the share `u` of the way. -/
structure OnAxis (o r x : ℝ) (n i : ℕ) (u : ℝ) : Prop where
  lt : i + 1 < n
  nonneg : 0 ≤ u
  le_one : u ≤ 1
  eq : x = o + (i + u) * r

/-- The estimate of the cell: the whole number of voxels before the coordinate, at most the last
    cell. -/
theorem floor_toNat_spec (hr : 0 < r) (hx : o ≤ x) :
    o + (⌊(x - o) / r⌋.toNat : ℝ) * r ≤ x ∧ x < o + ((⌊(x - o) / r⌋.toNat : ℝ) + 1) * r := by
  have h0 : 0 ≤ ⌊(x - o) / r⌋ := Int.floor_nonneg.mpr (div_nonneg (by linarith) hr.le)
  have hcast : ((⌊(x - o) / r⌋.toNat : ℕ) : ℝ) = (⌊(x - o) / r⌋ : ℝ) := by
    exact_mod_cast congrArg (Int.cast : ℤ → ℝ) (Int.toNat_of_nonneg h0)
  rw [hcast]
  have h1 := (le_div_iff₀ hr).mp (Int.floor_le ((x - o) / r))
  have h2 := (div_lt_iff₀ hr).mp (Int.lt_floor_add_one ((x - o) / r))
  exact ⟨by linarith, by linarith⟩

/-- The estimate is not corrected. -/
theorem cell_eq (hr : 0 < r) (n : ℕ) (hx : o ≤ x) :
    cell o r n x = Nat.min ⌊(x - o) / r⌋.toNat (n - 2) := by
  obtain ⟨h1, h2⟩ := floor_toNat_spec hr hx
  generalize hF : ⌊(x - o) / r⌋.toNat = F at h1 h2
  have hle : o + (Nat.min F (n - 2) : ℕ) * r ≤ x := by
    refine le_trans ?_ h1
    have : ((Nat.min F (n - 2) : ℕ) : ℝ) ≤ F := by exact_mod_cast Nat.min_le_left _ _
    nlinarith
  have hlt : Nat.min F (n - 2) + 2 < n → x < o + ((Nat.min F (n - 2) : ℕ) + 1) * r := by
    intro h
    have e : Nat.min F (n - 2) = F :=
      Nat.min_eq_left (by simp only [Nat.min_def] at h; split_ifs at h <;> omega)
    rw [e]
    exact h2
  simp only [cell, Exact.floor_eq, hF, coord_eq]
  rw [if_neg, if_neg]
  · simp only [Bool.and_eq_true, decide_eq_true_eq, Exact.le_iff, not_and, not_le]
    intro h
    rw [Nat.cast_add, Nat.cast_one]
    exact hlt h
  · simp only [Bool.and_eq_true, decide_eq_true_eq, Exact.lt_iff, not_and, not_lt]
    exact fun _ => hle

/-- The cell of a coordinate between the first and the last centre. -/
theorem cell_spec (hr : 0 < r) (hn : 2 ≤ n) (hx : o ≤ x) (hx' : x ≤ coord o r (n - 1)) :
    cell o r n x + 1 < n ∧ o + cell o r n x * r ≤ x ∧ x ≤ o + (cell o r n x + 1) * r := by
  obtain ⟨h1, h2⟩ := floor_toNat_spec hr hx
  have hlast : x ≤ o + ((n - 2 : ℕ) + 1) * r := by
    rw [coord_eq, show n - 1 = (n - 2) + 1 by omega] at hx'
    exact_mod_cast hx'
  rw [cell_eq hr n hx]
  generalize ⌊(x - o) / r⌋.toNat = F at h1 h2
  rcases Nat.le_total F (n - 2) with h | h
  · rw [show Nat.min F (n - 2) = F from Nat.min_eq_left h]
    exact ⟨by omega, h1, h2.le⟩
  · rw [show Nat.min F (n - 2) = n - 2 from Nat.min_eq_right h]
    refine ⟨by omega, le_trans ?_ h1, hlast⟩
    have : ((n - 2 : ℕ) : ℝ) ≤ F := by exact_mod_cast h
    nlinarith

/-- A coordinate between two centres lies between the first and the last one. -/
theorem OnAxis.between (hr : 0 < r) (h : OnAxis o r x n i u) : o ≤ x ∧ x ≤ coord o r (n - 1) := by
  have h0 := h.nonneg
  have h1 := h.le_one
  have hi : (0 : ℝ) ≤ i := Nat.cast_nonneg i
  have hlast : (i : ℝ) + 1 ≤ ((n - 1 : ℕ) : ℝ) := by
    have hlt := h.lt
    exact_mod_cast (by omega : i + 1 ≤ n - 1)
  rw [coord_eq, h.eq]
  constructor <;> nlinarith

theorem share_eq : share o r i x = (x - (o + i * r)) / r := by
  simp only [share, coord_eq]
  congr 1
  push_cast
  ring

/-- A coordinate between the first and the last centre lies in its cell at its share. -/
theorem onAxis_cell (hr : 0 < r) (hn : 2 ≤ n) (hx : o ≤ x) (hx' : x ≤ coord o r (n - 1)) :
    OnAxis o r x n (cell o r n x) (share o r (cell o r n x) x) := by
  obtain ⟨hlt, h1, h2⟩ := cell_spec hr hn hx hx'
  refine ⟨hlt, ?_, ?_, ?_⟩
  · rw [share_eq]
    exact div_nonneg (by linarith) hr.le
  · rw [share_eq, div_le_one hr]
    linarith
  · rw [share_eq]
    field_simp
    ring

/-- A coordinate before the next centre lies in this cell only. -/
theorem OnAxis.cell_eq (hr : 0 < r) (h : OnAxis o r x n i u) (hu : u < 1) : cell o r n x = i := by
  have hsum : (x - o) / r = i + u := by
    rw [h.eq]
    field_simp
    ring
  have hfloor : ⌊(x - o) / r⌋ = i := by
    rw [hsum, Int.floor_eq_iff]
    have := h.nonneg
    exact ⟨by push_cast; linarith, by push_cast; linarith⟩
  rw [DistanceField.cell_eq hr n (h.between hr).1, hfloor, Int.toNat_natCast]
  exact Nat.min_eq_left (Nat.le_sub_of_add_le h.lt)

theorem OnAxis.share_eq (hr : 0 < r) (h : OnAxis o r x n i u) : share o r i x = u := by
  rw [DistanceField.share_eq, h.eq]
  field_simp
  ring

/-- How far the two voxels around a coordinate are from it. -/
theorem OnAxis.coord_sub (h : OnAxis o r x n i u) (a : Bool) :
    (coord o r (i + a.toNat) - x) ^ 2 = Corners.off a u ^ 2 * r ^ 2 := by
  rw [h.eq, coord_eq]
  cases a <;> simp [Corners.off] <;> ring

/-- At the first or the last centre of an axis, only the voxel there has a share. -/
theorem OnAxis.outer_of_face (hr : 0 < r) (h : OnAxis o r x n i u)
    (hx : x = o ∨ x = coord o r (n - 1)) {a : Bool} (ha : Corners.off a u ≠ 1) :
    i + a.toNat = 0 ∨ i + a.toNat + 1 = n := by
  have hlt := h.lt
  have h0 := h.nonneg
  have h1 := h.le_one
  have hi : (0 : ℝ) ≤ i := Nat.cast_nonneg i
  rcases hx with e | e
  · left
    have hsum : (i : ℝ) + u = 0 := by
      have := h.eq
      rw [e] at this
      nlinarith
    have hi0 : i = 0 := by exact_mod_cast (by linarith : (i : ℝ) = 0)
    cases a
    · simp [hi0]
    · exact absurd (by simp only [Corners.off, ↓reduceIte]; linarith) ha
  · right
    have hn : ((n - 1 : ℕ) : ℝ) = n - 1 := by
      rw [Nat.cast_sub (by omega), Nat.cast_one]
    have hsum : (i : ℝ) + u = n - 1 := by
      have := h.eq
      rw [e, coord_eq, hn] at this
      exact (mul_right_cancel₀ hr.ne' (by linarith)).symm
    have hle : (i : ℝ) + 2 ≤ n := by exact_mod_cast hlt
    have hi0 : (i : ℝ) + 2 = n := by linarith
    have hi' : i + 2 = n := by exact_mod_cast hi0
    cases a
    · exact absurd (by simp only [Corners.off, Bool.false_eq_true, ↓reduceIte]; linarith) ha
    · simp only [Bool.toNat_true]
      omega

end Axis

/-! ## Cells -/

/-- A voxel at a corner of a cell. -/
def corner (c : Vec3 ℕ) (a b d : Bool) : Vec3 ℕ := ⟨c.x + a.toNat, c.y + b.toNat, c.z + d.toNat⟩

theorem dist_add_toNat (i : ℕ) (a b : Bool) :
    (Nat.dist (i + a.toNat) (i + b.toNat) : ℝ) ^ 2 = Corners.differ b a := by
  rw [Nat.dist_add_add_left]
  cases a <;> cases b <;> norm_num [Nat.dist, Corners.differ]

/-- The distance between two corners of a cell, in units of voxels. -/
theorem gap_corner (c : Vec3 ℕ) (a b d a' b' d' : Bool) :
    DistanceTransform.gap (corner c a' b' d') (corner c a b d) =
      √(Corners.differ a a' + Corners.differ b b' + Corners.differ d d') := by
  rw [DistanceTransform.gap, DistanceTransform.gapSq]
  push_cast
  simp only [corner, dist_add_toNat]
  congr 1
  ring

variable {f : DistanceField ℝ} {p : Vec3 ℝ} {c : Vec3 ℕ} {s : Vec3 ℝ}

/-- A point lies in the cell that starts at a voxel, at a share of the way along each axis. -/
structure InCell (f : DistanceField ℝ) (p : Vec3 ℝ) (c : Vec3 ℕ) (s : Vec3 ℝ) : Prop where
  x : OnAxis f.origin.x f.resolution p.x f.data.nx c.x s.x
  y : OnAxis f.origin.y f.resolution p.y f.data.ny c.y s.y
  z : OnAxis f.origin.z f.resolution p.z f.data.nz c.z s.z

/-- The distances at the corners of a cell. -/
def cornerValue (f : DistanceField ℝ) (c : Vec3 ℕ) (a b d : Bool) : ℝ :=
  f.data.getD (corner c a b d).x (corner c a b d).y (corner c a b d).z 0

/-- The position of a voxel. -/
noncomputable def centerOf (f : DistanceField ℝ) (c : Vec3 ℕ) : Vec3 ℝ :=
  center f.origin f.resolution c.x c.y c.z

/-- The point lies in the box of the voxel centres. -/
structure InBox (f : DistanceField ℝ) (p : Vec3 ℝ) : Prop where
  lowX : f.origin.x ≤ p.x
  lowY : f.origin.y ≤ p.y
  lowZ : f.origin.z ≤ p.z
  highX : p.x ≤ f.upper.x
  highY : p.y ≤ f.upper.y
  highZ : p.z ≤ f.upper.z

/-- The grid has cells, and their size is positive. -/
structure HasCells (f : DistanceField ℝ) : Prop where
  pos : 0 < f.resolution
  x : 2 ≤ f.data.nx
  y : 2 ≤ f.data.ny
  z : 2 ≤ f.data.nz

/-- The cell that the interpolation looks up. -/
noncomputable def cellOf (f : DistanceField ℝ) (p : Vec3 ℝ) : Vec3 ℕ :=
  ⟨cell f.origin.x f.resolution f.data.nx p.x, cell f.origin.y f.resolution f.data.ny p.y,
   cell f.origin.z f.resolution f.data.nz p.z⟩

/-- The shares with which the interpolation weights the corners. -/
noncomputable def shareOf (f : DistanceField ℝ) (p : Vec3 ℝ) : Vec3 ℝ :=
  ⟨share f.origin.x f.resolution (f.cellOf p).x p.x,
    share f.origin.y f.resolution (f.cellOf p).y p.y,
   share f.origin.z f.resolution (f.cellOf p).z p.z⟩

theorem inCell_cellOf (hf : HasCells f) (hp : InBox f p) : InCell f p (f.cellOf p) (f.shareOf p) :=
  ⟨onAxis_cell hf.pos hf.x hp.lowX hp.highX, onAxis_cell hf.pos hf.y hp.lowY hp.highY,
   onAxis_cell hf.pos hf.z hp.lowZ hp.highZ⟩

/-- The interpolated distance is the mean over the corners of the cell. -/
theorem interpolate_eq_mix (f : DistanceField ℝ) (p : Vec3 ℝ) : (f.interpolate p).1 =
    Corners.mix (f.cornerValue (f.cellOf p)) (f.shareOf p).x (f.shareOf p).y (f.shareOf p).z := by
  have e : (f.interpolate p).1 = trilinear (fun a b c => f.data.getD a b c 0) (f.cellOf p).x
    (f.cellOf p).y
      (f.cellOf p).z (f.shareOf p).x (f.shareOf p).y (f.shareOf p).z := by
    simp only [interpolate, Exact.zero_eq]
    rfl
  rw [e]
  generalize f.shareOf p = s
  generalize f.cellOf p = c
  simp only [trilinear, Corners.mix, cornerValue, corner, Exact.one_eq, Bool.toNat_false,
    Bool.toNat_true, add_zero]

theorem interpolate_snd (f : DistanceField ℝ) (p : Vec3 ℝ) : (f.interpolate p).2 =
    trilinearVec f.gradient (f.cellOf p).x (f.cellOf p).y (f.cellOf p).z (f.shareOf p).x (f.shareOf p).y
      (f.shareOf p).z := rfl

namespace InCell

theorem within_corner (h : InCell f p c s) (a b d : Bool) : f.data.Within (corner c a b d) := by
  have hx := h.x.lt
  have hy := h.y.lt
  have hz := h.z.lt
  have ha := Bool.toNat_le a
  have hb := Bool.toNat_le b
  have hd := Bool.toNat_le d
  refine ⟨?_, ?_, ?_⟩ <;> simp only [corner] <;> omega

theorem normSq_center_sub (h : InCell f p c s) (a b d : Bool) :
    (f.centerOf (corner c a b d) - p).normSq =
    (Corners.off a s.x ^ 2 + Corners.off b s.y ^ 2 + Corners.off d s.z ^ 2) * f.resolution ^ 2 := by
  have hx := h.x.coord_sub a
  have hy := h.y.coord_sub b
  have hz := h.z.coord_sub d
  simp only [centerOf, center, corner, Vec3.sub_def, Vec3.normSq]
  rw [hx, hy, hz]
  ring

/-- A point of a cell lies in the box. -/
theorem inBox (hf : HasCells f) (h : InCell f p c s) : InBox f p :=
  ⟨(h.x.between hf.pos).1, (h.y.between hf.pos).1, (h.z.between hf.pos).1, (h.x.between hf.pos).2,
    (h.y.between hf.pos).2, (h.z.between hf.pos).2⟩

/-- A point before the next centre along each axis lies in this cell only. -/
theorem cellOf_eq (hf : HasCells f) (h : InCell f p c s) (hs : s.x < 1 ∧ s.y < 1 ∧ s.z < 1) :
    f.cellOf p = c ∧ f.shareOf p = s := by
  have hcell : f.cellOf p = c :=
    Vec3.ext (h.x.cell_eq hf.pos hs.1) (h.y.cell_eq hf.pos hs.2.1) (h.z.cell_eq hf.pos hs.2.2)
  refine ⟨hcell, ?_⟩
  rw [shareOf, hcell]
  exact Vec3.ext (h.x.share_eq hf.pos) (h.y.share_eq hf.pos) (h.z.share_eq hf.pos)

theorem mix_le (h : InCell f p c s) {V W : Bool → Bool → Bool → ℝ}
    (hVW : ∀ a b d, V a b d ≤ W a b d) :
    Corners.mix V s.x s.y s.z ≤ Corners.mix W s.x s.y s.z :=
  Corners.mix_le_mix h.x.nonneg h.x.le_one h.y.nonneg h.y.le_one h.z.nonneg h.z.le_one hVW

end InCell

end Clearance.DistanceField
