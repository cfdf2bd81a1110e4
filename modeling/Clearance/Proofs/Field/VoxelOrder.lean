import Clearance.Proofs.Field.Steady
import Clearance.Proofs.Geometry.Composition

/-!
# The order of voxels

The centres of the voxels are listed in the order in which the cells are stored, and the
interpolation looks every centre up where its cell is. So the row of a voxel has its own distance,
and in a field of shapes it has a negative one if and only if a shape contains it.

* `DistanceField.Constructed`: the fields that can be made.
* `DistanceField.getElem?_gridPoints`: the place of a centre in the list of all.
* `DistanceField.sample_centerOf`: the distance at a centre.
* `DistanceTransform.signed_neg_iff_holds`: the sign of a voxel, also of a grid without free voxels.
* `DistanceField.isRow_of_constructed`, `DistanceField.ofShapes_rows`: rows of all fields, and of
  those of shapes.
-/

namespace Clearance

/-! ## Signs without a free voxel -/

namespace DistanceTransform

variable {g : Grid Bool} {r : ℝ} {c : Vec3 ℕ}

/-- Where every voxel is occupied, the distances are those to the place before the first one. -/
theorem signed_of_full (hr : 0 < r) (hfull : ∀ b, g.Within b → g.Holds b) (hc : g.Within c) :
    (signed g r).getD c.x c.y c.z 0 < 0 := by
  have hany : ¬ (g.map (!·)).cells.any id = true := by
    intro h
    obtain ⟨v, hv, hmarked⟩ := Array.any_eq_true'.mp h
    obtain ⟨b, hb, e⟩ := Grid.exists_of_mem hv false
    have hholds : (g.map (!·)).Holds b := ⟨hb, e.trans hmarked⟩
    exact (Grid.holds_map_not.mp hholds).2 (hfull b (Grid.holds_map_not.mp hholds).1)
  have hsquare : (squaredFrom (g.map (!·))).getD c.x c.y c.z 0 =
      (c.x + 1) * (c.x + 1) + c.y * c.y + c.z * c.z := by
    rw [squaredFrom, if_neg hany]
    exact Grid.getD_ofFn _ _ hc.1 hc.2.1 hc.2.2
  have hone : 1 ≤ (c.x + 1) * (c.x + 1) + c.y * c.y + c.z * c.z := by nlinarith
  generalize (c.x + 1) * (c.x + 1) + c.y * c.y + c.z * c.z = d at hsquare hone
  have hsqrt : 1 ≤ √(d : ℝ) := by
    rw [Real.one_le_sqrt]
    exact_mod_cast hone
  rw [signed_eq hc, (hfull c hc).2, hsquare]
  simp only [signedValue, ↓reduceIte, Exact.ofInt_eq, Exact.sqrt_eq, Exact.ofScientific_eq]
  rw [Int.cast_natCast]
  refine mul_neg_of_neg_of_pos ?_ hr
  norm_num
  linarith

/-- The distances are negative at the occupied voxels only, whether or not some voxel is free. -/
theorem signed_neg_iff_holds (hr : 0 < r) (hocc : ∃ b, g.Holds b) (hc : g.Within c) :
    (signed g r).getD c.x c.y c.z 0 < 0 ↔ g.Holds c := by
  by_cases hfree : ∃ b, g.Within b ∧ ¬ g.Holds b
  · exact signed_neg_iff hr hocc hfree hc
  · have hfull : ∀ b, g.Within b → g.Holds b := fun b hb => by
      by_contra hn
      exact hfree ⟨b, hb, hn⟩
    exact ⟨fun _ => hfull c hc, fun _ => signed_of_full hr hfull hc⟩

end DistanceTransform

/-- At a corner, the mean is the value there. -/
theorem Corners.mix_toNat (V : Bool → Bool → Bool → ℝ) (a b c : Bool) :
    Corners.mix V a.toNat b.toNat c.toNat = V a b c := by
  cases a <;> cases b <;> cases c <;> simp [Corners.mix]

namespace DistanceField

/-! ## Centres -/

section Centers

variable {f : DistanceField ℝ} {c : Vec3 ℕ} {o r u : ℝ} {n i v : ℕ}

/-- A centre that lies between two others is one of them. -/
theorem OnAxis.exists_toNat (hr : 0 < r) (h : OnAxis o r (coord o r v) n i u) :
    ∃ a : Bool, u = a.toNat ∧ i + a.toNat = v := by
  have hsum : (v : ℝ) = i + u := by
    have he := h.eq
    rw [coord_eq] at he
    exact mul_right_cancel₀ hr.ne' (by linarith)
  have hlow : i ≤ v := by exact_mod_cast (by linarith [h.nonneg] : (i : ℝ) ≤ v)
  have hhigh : v ≤ i + 1 := by exact_mod_cast (by linarith [h.le_one] : (v : ℝ) ≤ i + 1)
  rcases Nat.eq_or_lt_of_le hlow with rfl | hlt
  · exact ⟨false, by simpa using hsum, rfl⟩
  · obtain rfl : v = i + 1 := by omega
    refine ⟨true, ?_, rfl⟩
    push_cast at hsum
    simp only [Bool.toNat_true, Nat.cast_one]
    linarith

theorem coord_mem (hr : 0 < r) (hv : v < n) : o ≤ coord o r v ∧ coord o r v ≤ coord o r (n - 1) := by
  have hle : (v : ℝ) ≤ ((n - 1 : ℕ) : ℝ) := by exact_mod_cast Nat.le_sub_one_of_lt hv
  have hnonneg : (0 : ℝ) ≤ v := Nat.cast_nonneg v
  rw [coord_eq, coord_eq]
  constructor <;> nlinarith

theorem inBox_centerOf (hf : HasCells f) (hc : f.data.Within c) : InBox f (f.centerOf c) where
  lowX := (coord_mem hf.pos hc.1).1
  lowY := (coord_mem hf.pos hc.2.1).1
  lowZ := (coord_mem hf.pos hc.2.2).1
  highX := (coord_mem hf.pos hc.1).2
  highY := (coord_mem hf.pos hc.2.1).2
  highZ := (coord_mem hf.pos hc.2.2).2

/-- The distance at a centre is that of its voxel, from whichever of its cells it is interpolated. -/
theorem sample_centerOf (hf : HasCells f) (hc : f.data.Within c) :
    (f.sample (f.centerOf c)).1 = f.data.getD c.x c.y c.z 0 := by
  have hin := inBox_centerOf hf hc
  have hcell := inCell_cellOf hf hin
  obtain ⟨a, hx, ha⟩ := hcell.x.exists_toNat hf.pos
  obtain ⟨b, hy, hb⟩ := hcell.y.exists_toNat hf.pos
  obtain ⟨d, hz, hd⟩ := hcell.z.exists_toNat hf.pos
  rw [sample_of_inBox hin, interpolate_eq_mix, hx, hy, hz, Corners.mix_toNat, cornerValue, corner, ha, hb, hd]

theorem length_gridPlane (f : DistanceField ℝ) (i : ℕ) :
    ((List.range f.data.ny).flatMap fun j =>
      (List.range f.data.nz).map fun k => center f.origin f.resolution i j k).length = f.data.ny * f.data.nz := by
  simp [List.length_flatMap]

/-- A centre stands in the list of all where its cell is stored. -/
theorem getElem?_gridPoints (hc : f.data.Within c) :
    f.gridPoints[(c.x * f.data.ny + c.y) * f.data.nz + c.z]? = some (f.centerOf c) := by
  have hplace : (c.x * f.data.ny + c.y) * f.data.nz + c.z =
      c.x * (f.data.ny * f.data.nz) + (c.y * f.data.nz + c.z) := by ring
  have hplane : c.y * f.data.nz + c.z < f.data.ny * f.data.nz := by
    have hy := hc.2.1
    have hz := hc.2.2
    nlinarith
  rw [hplace, gridPoints, getElem?_flatMap_of_length (fun i _ => length_gridPlane f i) c.x hplane,
    List.getElem?_range hc.1, Option.bind_some, getElem?_flatMap_of_length (by simp) c.y hc.2.2,
    List.getElem?_range hc.2.1, Option.bind_some, List.getElem?_map, List.getElem?_range hc.2.2]
  rfl

end Centers

/-! ## Fields that can be made -/

/-- The fields that can be made: of given distances, of given distances and directions, and copies. -/
inductive Constructed : DistanceField ℝ → Prop
  | ofData {data : Grid ℝ} {origin : Vec3 ℝ} {r : ℝ} {f : DistanceField ℝ} :
    DistanceField.ofData data origin r = .ok f → Constructed f
  | ofDataAndGradients {data : Grid ℝ} {gradients : Grid (Vec3 ℝ)} {origin : Vec3 ℝ} {r : ℝ} {f : DistanceField ℝ} :
    DistanceField.ofDataAndGradients data gradients origin r = .ok f → Constructed f
  | copy {f : DistanceField ℝ} : Constructed f → Constructed f.copy

theorem hasCells_of_ofData {data : Grid ℝ} {origin : Vec3 ℝ} {r : ℝ} {f : DistanceField ℝ}
    (h : ofData data origin r = .ok f) : HasCells f := by
  obtain ⟨-, hres, hdata, hpos, hx, hy, hz⟩ := FieldPlan.ofData_eq_ok h
  exact ⟨hres ▸ hpos, hdata ▸ hx, hdata ▸ hy, hdata ▸ hz⟩

/-- Every field has cells: given directions pass the same checks as differences of neighbours. -/
theorem Constructed.hasCells {f : DistanceField ℝ} (hf : Constructed f) : HasCells f := by
  induction hf with
  | ofData h => exact hasCells_of_ofData h
  | ofDataAndGradients h =>
    obtain ⟨_, hdims, h⟩ := bind_eq_ok.mp h
    obtain ⟨_, hres, h⟩ := bind_eq_ok.mp h
    obtain ⟨_, hcenters, h⟩ := bind_eq_ok.mp h
    have hcells := hasCells_of_ofData
      (bind_eq_ok.mpr ⟨_, hdims, bind_eq_ok.mpr ⟨_, hres, bind_eq_ok.mpr ⟨_, hcenters, rfl⟩⟩⟩)
    obtain rfl := Except.ok.inj h
    exact ⟨hcells.pos, hcells.x, hcells.y, hcells.z⟩
  | copy _ ih => exact ⟨ih.pos, ih.x, ih.y, ih.z⟩

/-! ## Rows -/

/-- The row of a voxel: it stands in the list of centres where the cell of the voxel is stored, it is
    the place that the index says, it lies in the grid and has the distance of the voxel. -/
structure IsRow (f : DistanceField ℝ) (c : Vec3 ℕ) (row : Vec3 ℝ) : Prop where
  listed : f.gridPoints[(c.x * f.data.ny + c.y) * f.data.nz + c.z]? = some row
  eq : row = ⟨f.origin.x + f.resolution * c.x, f.origin.y + f.resolution * c.y, f.origin.z + f.resolution * c.z⟩
  inside : f.isOutOfBounds row = false
  value : (f.sample row).1 = f.data.getD c.x c.y c.z 0

section Rows

variable {f : DistanceField ℝ} {c : Vec3 ℕ} {row : Vec3 ℝ}

theorem centerOf_eq (f : DistanceField ℝ) (c : Vec3 ℕ) : f.centerOf c =
    ⟨f.origin.x + f.resolution * c.x, f.origin.y + f.resolution * c.y, f.origin.z + f.resolution * c.z⟩ := by
  simp only [centerOf, center, coord_eq, mul_comm]

theorem isRow_centerOf (hf : HasCells f) (hc : f.data.Within c) : IsRow f c (f.centerOf c) where
  listed := getElem?_gridPoints hc
  eq := centerOf_eq f c
  inside := isOutOfBounds_eq_false_iff.mpr (inBox_centerOf hf hc)
  value := sample_centerOf hf hc

theorem IsRow.eq_centerOf (h : IsRow f c row) : row = f.centerOf c := h.eq.trans (centerOf_eq f c).symm

end Rows

/-! ## Fields of shapes -/

section Shapes

variable {settings : Settings ℝ} {sources : List (ShapeSource ℝ)} {poses : Option (List (PoseSource ℝ))}
  {params : GridParams ℝ} {f : DistanceField ℝ}

/-- Sources that are shapes are planned as these. -/
theorem make_of_validate {shapes : List (Shape ℝ)} (h : sources.mapM ShapeSource.validate = .ok shapes) :
    FieldPlan.make settings sources poses params = FieldPlan.make settings (shapes.map .shape) poses params := by
  unfold FieldPlan.make
  rw [h, FieldPlan.validate_shapes]

/-- What is seen from a pose is what the inverse of its motion takes there. -/
theorem covers_iff_inverse (s : PlacedShape ℝ) (p : Vec3 ℝ) :
    s.Covers p ↔ s.shape.Covers (s.pose.toMotion.inverse.apply p) := by
  rw [PlacedShape.Covers, LooseMotion.rowToLocal_eq_toLocal, Pose.toLocal_eq_inverse_apply]

/-- Of the voxels of a field of shapes, those are negative whose row some shape contains. -/
theorem exists_neg_iff_covers (h : (ofShapes settings sources poses params).1 = .ok f) :
    Constructed f ∧ ∃ shapes ps, sources.mapM ShapeSource.validate = .ok shapes ∧
      FieldPlan.alignPoses shapes.length poses = .ok ps ∧
      ∀ c, f.data.Within c → (f.data.getD c.x c.y c.z 0 < 0 ↔
        ∃ s ∈ List.zipWith PlacedShape.mk shapes ps, s.Covers (f.centerOf c)) := by
  obtain ⟨plan, hplan, g, n, hmarked, hfield⟩ := ofShapes_eq_ok.mp h
  obtain ⟨shapes, hshapes, -⟩ := bind_eq_ok.mp hplan
  rw [make_of_validate hshapes] at hplan
  obtain ⟨-, ps, -, -, hps, -, -, hplaced, -⟩ := FieldPlan.make_eq_ok.mp hplan
  obtain ⟨-, -, -, hocc, hholds⟩ := FieldPlan.marked_eq_ok hmarked
  obtain ⟨horigin, hres, hdata, hpos, -⟩ := FieldPlan.ofData_eq_ok hfield
  refine ⟨.ofData hfield, shapes, ps, hshapes, hps, fun c hc => ?_⟩
  have hc' : g.Within c := by
    rw [hdata] at hc
    exact hc
  rw [hdata, DistanceTransform.signed_neg_iff_holds hpos hocc hc', hholds c hc', hplaced, centerOf, horigin, hres]
  rfl

/-- Every voxel of every field has its row, and in a field of shapes the rows of the negative voxels
    are those that some shape contains, seen through the inverse of its pose. -/
theorem rows_of_voxels :
    (∀ {f : DistanceField ℝ}, Constructed f → ∀ {c}, f.data.Within c → ∃ row, IsRow f c row) ∧
    ∀ {settings sources poses params} {f : DistanceField ℝ}, (ofShapes settings sources poses params).1 = .ok f →
      Constructed f ∧ ∃ shapes ps, sources.mapM ShapeSource.validate = .ok shapes ∧
        FieldPlan.alignPoses shapes.length poses = .ok ps ∧
        ∀ {c row}, f.data.Within c → IsRow f c row →
          (f.data.getD c.x c.y c.z 0 < 0 ↔
            ∃ s ∈ List.zipWith PlacedShape.mk shapes ps, s.shape.Covers (s.pose.toMotion.inverse.apply row)) := by
  refine ⟨fun hf c hc => ⟨_, isRow_centerOf hf.hasCells hc⟩, fun h => ?_⟩
  obtain ⟨hf, shapes, ps, hshapes, hps, hneg⟩ := exists_neg_iff_covers h
  refine ⟨hf, shapes, ps, hshapes, hps, fun {c row} hc hrow => ?_⟩
  simp only [← covers_iff_inverse, hrow.eq_centerOf]
  exact hneg c hc

/-- In the field of a cube of eight units with voxels of one unit and no margin, the second voxel along
    every axis has its row in the cube, and the first one does not. -/
theorem rows_of_voxels_cube :
    ∃ f : DistanceField ℝ, (ofShapes .standard [.shape cube] none cubeGrid).1 = .ok f ∧
      IsRow f ⟨1, 1, 1⟩ ⟨-7 / 2, -7 / 2, -7 / 2⟩ ∧ f.data.getD 1 1 1 0 < 0 ∧
      IsRow f ⟨0, 0, 0⟩ ⟨-9 / 2, -9 / 2, -9 / 2⟩ ∧ ¬ f.data.getD 0 0 0 0 < 0 := by
  have hcount : Layout.voxelCount (1 : ℝ) 8 = 8 + 2 := Layout.voxelCount_of_whole (by norm_num)
  have hposes : FieldPlan.alignPoses 1 none = .ok [(Pose.origin : Pose ℝ)] := rfl
  obtain ⟨f, g, n, hf, hmarked, hfield⟩ := exists_cubeAt hcount (by norm_num) hposes one_pos (by norm_num) (by decide)
  obtain ⟨horigin, hres, -⟩ := FieldPlan.ofData_eq_ok hfield
  obtain ⟨-, hx, hy, hz⟩ := hasCells_of_ofData hfield
  have hwithin : f.data.Within ⟨1, 1, 1⟩ ∧ f.data.Within ⟨0, 0, 0⟩ :=
    ⟨⟨hx, hy, hz⟩, Nat.zero_lt_of_lt hx, Nat.zero_lt_of_lt hy, Nat.zero_lt_of_lt hz⟩
  have hplace : ∀ {c : Vec3 ℕ} {row : Vec3 ℝ}, IsRow f c row →
      row = ⟨-9 / 2 + c.x, -9 / 2 + c.y, -9 / 2 + c.z⟩ := fun h => by
    rw [h.eq, horigin, hres]
    norm_num [cubePlanAt]
  obtain ⟨hconstructed, shapes, ps, hshapes, hps, hneg⟩ := rows_of_voxels.2 hf
  obtain rfl : [cube] = shapes := Except.ok.inj hshapes
  obtain rfl : [Pose.origin] = ps := Except.ok.inj hps
  have hcovers : ∀ {c : Vec3 ℕ} {row : Vec3 ℝ}, f.data.Within c → IsRow f c row →
      (f.data.getD c.x c.y c.z 0 < 0 ↔ |row.x| ≤ 4 ∧ |row.y| ≤ 4 ∧ |row.z| ≤ 4) := fun hc hrow => by
    rw [hneg hc hrow, ← covers_cube, covers_iff_inverse]
    simp
  obtain ⟨row, hrow⟩ := rows_of_voxels.1 hconstructed hwithin.1
  obtain ⟨row', hrow'⟩ := rows_of_voxels.1 hconstructed hwithin.2
  have hsecond := hcovers hwithin.1 hrow
  have hfirst := hcovers hwithin.2 hrow'
  obtain rfl : row = ⟨-7 / 2, -7 / 2, -7 / 2⟩ := by
    rw [hplace hrow]
    norm_num
  obtain rfl : row' = ⟨-9 / 2, -9 / 2, -9 / 2⟩ := by
    rw [hplace hrow']
    norm_num
  refine ⟨f, hf, hrow, hsecond.mpr ?_, hrow', fun h => ?_⟩
  · norm_num [abs_le]
  · have hle := (hfirst.mp h).1
    norm_num [abs_le] at hle

end Shapes

end DistanceField

end Clearance
