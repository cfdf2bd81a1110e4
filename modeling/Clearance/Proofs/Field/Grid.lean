import Mathlib.Tactic.Ring
import Clearance.Field.Grid
import Clearance.Geometry.Vec3

/-!
# Voxels of a grid

Every place of the array of a grid is the place of one voxel, so a statement about all cells is one
about all voxels.

* `Grid.Within`, `Grid.Holds`: the voxels of a grid, and those that are marked.
* `Grid.holds_of_any`, `Grid.holds_of_count`: a grid with a marked cell has a marked voxel.
-/

namespace Clearance.Grid

variable {β γ : Type}

/-- The voxel lies in the box of the grid. -/
def Within (g : Grid β) (c : Vec3 ℕ) : Prop := c.x < g.nx ∧ c.y < g.ny ∧ c.z < g.nz

/-- The voxel is a marked one of the grid. -/
def Holds (g : Grid Bool) (c : Vec3 ℕ) : Prop := g.Within c ∧ g.getD c.x c.y c.z false = true

theorem getElem?_place {g : Grid β} {c : Vec3 ℕ} (hc : g.Within c) (outside : β) :
    g.cells[place g.ny g.nz c.x c.y c.z]? = some (g.getD c.x c.y c.z outside) := by
  have h : place g.ny g.nz c.x c.y c.z < g.cells.size := g.size_cells ▸ place_lt hc.1 hc.2.1 hc.2.2
  rw [getD, Array.getD_eq_getD_getElem?, Array.getElem?_eq_getElem h, Option.getD_some]

theorem getD_map {g : Grid β} {c : Vec3 ℕ} (hc : g.Within c) (f : β → γ) (outside : β)
    (outside' : γ) :
    (g.map f).getD c.x c.y c.z outside' = f (g.getD c.x c.y c.z outside) := by
  have hc' : (g.map f).Within c := hc
  apply Option.some.inj
  rw [← getElem?_place hc', map, Array.getElem?_map, getElem?_place hc outside, Option.map_some]

/-- The voxels that are not marked. -/
theorem holds_map_not {g : Grid Bool} {c : Vec3 ℕ} :
    (g.map (!·)).Holds c ↔ g.Within c ∧ ¬ g.Holds c := by
  have h : g.Within c → (g.map (!·)).getD c.x c.y c.z false = !g.getD c.x c.y c.z false :=
    fun hc => getD_map hc _ _ _
  constructor
  · rintro ⟨hc, hv⟩
    rw [h hc] at hv
    exact ⟨hc, fun h' => by simp [h'.2] at hv⟩
  · rintro ⟨hc, hn⟩
    refine ⟨hc, ?_⟩
    rw [h hc]
    simpa using fun e => hn ⟨hc, e⟩

/-- Every place of the array is the place of a voxel. -/
theorem exists_place {nx ny nz p : ℕ} (hp : p < nx * ny * nz) :
    ∃ i < nx, ∃ j < ny, ∃ k < nz, place ny nz i j k = p := by
  have hny : 0 < ny := Nat.pos_of_ne_zero (by rintro rfl; simp at hp)
  have hnz : 0 < nz := Nat.pos_of_ne_zero (by rintro rfl; simp at hp)
  have hi : p / nz / ny < nx := by
    rw [Nat.div_lt_iff_lt_mul hny, Nat.div_lt_iff_lt_mul hnz]
    exact hp
  refine ⟨p / nz / ny, hi, p / nz % ny, Nat.mod_lt _ hny, p % nz, Nat.mod_lt _ hnz, ?_⟩
  rw [place, Nat.div_add_mod' (p / nz) ny, Nat.div_add_mod']

theorem exists_of_mem {g : Grid β} {b : β} (h : b ∈ g.cells) (outside : β) :
    ∃ c, g.Within c ∧ g.getD c.x c.y c.z outside = b := by
  obtain ⟨p, hp, rfl⟩ := Array.getElem_of_mem h
  obtain ⟨i, hi, j, hj, k, hk, rfl⟩ := exists_place (g.size_cells ▸ hp)
  have hc : g.Within ⟨i, j, k⟩ := ⟨hi, hj, hk⟩
  refine ⟨⟨i, j, k⟩, hc, Option.some.inj ?_⟩
  rw [← getElem?_place hc, Array.getElem?_eq_getElem hp]

theorem mem_cells {g : Grid β} {c : Vec3 ℕ} (hc : g.Within c) (outside : β) :
    g.getD c.x c.y c.z outside ∈ g.cells :=
  Array.mem_of_getElem? (getElem?_place hc outside)

/-- A grid with a marked voxel is seen to have one. -/
theorem any_of_holds {g : Grid Bool} {c : Vec3 ℕ} (h : g.Holds c) : g.cells.any id = true := by
  rw [Array.any_eq_true']
  exact ⟨_, mem_cells h.1 false, h.2⟩

theorem foldl_count_eq (p : β → Bool) (cs : List β) (n : ℕ) :
    cs.foldl (fun n c => if p c then n + 1 else n) n = n + cs.countP p := by
  induction cs generalizing n with
  | nil => rfl
  | cons c cs ih =>
    rw [List.foldl_cons, ih, List.countP_cons]
    split_ifs <;> omega

theorem count_eq (p : β → Bool) (g : Grid β) : g.count p = g.cells.toList.countP p := by
  rw [count, ← Array.foldl_toList, foldl_count_eq, Nat.zero_add]

/-- A grid in which marked cells are counted has a marked voxel. -/
theorem holds_of_count {g : Grid Bool} (h : g.count id ≠ 0) : ∃ c, g.Holds c := by
  rw [count_eq, ← Nat.pos_iff_ne_zero, List.countP_pos_iff] at h
  obtain ⟨b, hb, hm⟩ := h
  obtain ⟨c, hc, e⟩ := exists_of_mem (Array.mem_toList_iff.mp hb) false
  exact ⟨c, hc, e.trans hm⟩

theorem count_ne_zero {g : Grid Bool} {c : Vec3 ℕ} (h : g.Holds c) : g.count id ≠ 0 := by
  rw [count_eq, ← Nat.pos_iff_ne_zero, List.countP_pos_iff]
  exact ⟨_, Array.mem_toList_iff.mpr (mem_cells h.1 false), h.2⟩

end Clearance.Grid
