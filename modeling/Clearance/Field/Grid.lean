/-!
# Grids of voxels

A grid holds one cell for each voxel of a box. The cells stand in one array in which the third index
runs fastest; `Grid.get` and `Grid.ofFn` are the two directions of that order.
-/

namespace Clearance

/-- A box of `nx` by `ny` by `nz` cells. -/
structure Grid (β : Type) where
  nx : Nat
  ny : Nat
  nz : Nat
  cells : Array β
  size_cells : cells.size = nx * ny * nz

namespace Grid

variable {β γ : Type}

/-- The number of cells. -/
def size (g : Grid β) : Nat := g.nx * g.ny * g.nz

/-- The place of a cell in the array. -/
@[inline] def place (ny nz i j k : Nat) : Nat := (i * ny + j) * nz + k

/-- The grid with given cells. -/
@[inline] def ofFn (nx ny nz : Nat) (f : Nat → Nat → Nat → β) : Grid β where
  nx := nx
  ny := ny
  nz := nz
  cells := Array.ofFn fun (p : Fin (nx * ny * nz)) => f (p.val / (ny * nz)) (p.val / nz % ny) (p.val % nz)
  size_cells := Array.size_ofFn

/-- The cell at an index, or the given one outside of the box. -/
@[inline] def getD (g : Grid β) (i j k : Nat) (outside : β) : β := g.cells.getD (place g.ny g.nz i j k) outside

/-- The grid with a function applied to every cell. -/
@[inline] def map (f : β → γ) (g : Grid β) : Grid γ where
  nx := g.nx
  ny := g.ny
  nz := g.nz
  cells := g.cells.map f
  size_cells := by simp [g.size_cells]

/-- How many cells satisfy a test. -/
def count (p : β → Bool) (g : Grid β) : Nat := g.cells.foldl (fun n c => if p c then n + 1 else n) 0

/-- Whether a place is that of an index, told by division. -/
theorem place_decode {ny nz i j k : Nat} (hj : j < ny) (hk : k < nz) :
    place ny nz i j k / (ny * nz) = i ∧ place ny nz i j k / nz % ny = j ∧ place ny nz i j k % nz = k := by
  have hnz : 0 < nz := by omega
  have hny : 0 < ny := by omega
  have h1 : place ny nz i j k / nz = i * ny + j := by
    rw [place, Nat.mul_comm, Nat.mul_add_div hnz, Nat.div_eq_of_lt hk, Nat.add_zero]
  have h2 : (i * ny + j) / ny = i := by
    rw [Nat.mul_comm, Nat.mul_add_div hny, Nat.div_eq_of_lt hj, Nat.add_zero]
  refine ⟨?_, ?_, ?_⟩
  · rw [Nat.mul_comm ny nz, ← Nat.div_div_eq_div_mul, h1, h2]
  · rw [h1, Nat.mul_comm, Nat.mul_add_mod, Nat.mod_eq_of_lt hj]
  · rw [place, Nat.mul_comm, Nat.mul_add_mod, Nat.mod_eq_of_lt hk]

/-- An index inside the box has a place in the array. -/
theorem place_lt {nx ny nz i j k : Nat} (hi : i < nx) (hj : j < ny) (hk : k < nz) :
    place ny nz i j k < nx * ny * nz := by
  have h1 : i * ny + j + 1 ≤ nx * ny := by
    calc i * ny + j + 1 ≤ i * ny + ny := by omega
      _ = (i + 1) * ny := by rw [Nat.add_mul, Nat.one_mul]
      _ ≤ nx * ny := Nat.mul_le_mul_right _ hi
  calc place ny nz i j k < (i * ny + j) * nz + nz := by unfold place; omega
    _ = (i * ny + j + 1) * nz := by rw [Nat.add_mul (i * ny + j), Nat.one_mul]
    _ ≤ nx * ny * nz := Nat.mul_le_mul_right _ h1

/-- A grid has the cells it was made of. -/
theorem getD_ofFn {nx ny nz i j k : Nat} (f : Nat → Nat → Nat → β) (outside : β) (hi : i < nx) (hj : j < ny)
    (hk : k < nz) : (ofFn nx ny nz f).getD i j k outside = f i j k := by
  obtain ⟨h1, h2, h3⟩ := place_decode (i := i) hj hk
  have h := place_lt hi hj hk
  simp [getD, ofFn, h, h1, h2, h3]

end Grid

end Clearance
