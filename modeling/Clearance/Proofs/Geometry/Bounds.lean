import Clearance.Proofs.Geometry.Rigid
import Clearance.Mesh.Primitives

/-!
# Bounding boxes

Coordinatewise comparison of vectors of real numbers, and the bounding boxes it gives.

* `Vec3.Below`, `InBounds`: comparison, and membership in a box.
* `Vec3.minimum_below`, `Vec3.below_maximum`: the corners of the bounding box of a list of points.
* `inBounds_image`: the box around the images of the corners of a box contains the images of all its
  points.
-/

namespace Clearance

/-- One vector is at most another in every coordinate. -/
structure Vec3.Below (u v : Vec3 ℝ) : Prop where
  x : u.x ≤ v.x
  y : u.y ≤ v.y
  z : u.z ≤ v.z

/-- A point of the box with the given least and greatest corner. -/
def InBounds (b : Vec3 ℝ × Vec3 ℝ) (p : Vec3 ℝ) : Prop := b.1.Below p ∧ p.Below b.2

namespace Vec3

variable {u v m : Vec3 ℝ} {vs : List (Vec3 ℝ)}

theorem below_refl (v : Vec3 ℝ) : v.Below v := ⟨le_rfl, le_rfl, le_rfl⟩

theorem Below.trans {w : Vec3 ℝ} (h : u.Below v) (h' : v.Below w) : u.Below w :=
  ⟨h.x.trans h'.x, h.y.trans h'.y, h.z.trans h'.z⟩

theorem Below.antisymm (h : u.Below v) (h' : v.Below u) : u = v :=
  Vec3.ext (le_antisymm h.x h'.x) (le_antisymm h.y h'.y) (le_antisymm h.z h'.z)

theorem min_eq (u v : Vec3 ℝ) : u.min v = ⟨Min.min u.x v.x, Min.min u.y v.y, Min.min u.z v.z⟩ := by
  simp [min, zipWith]

theorem max_eq (u v : Vec3 ℝ) : u.max v = ⟨Max.max u.x v.x, Max.max u.y v.y, Max.max u.z v.z⟩ := by
  simp [max, zipWith]

theorem min_below_left : (u.min v).Below u := by
  rw [min_eq]
  exact ⟨min_le_left _ _, min_le_left _ _, min_le_left _ _⟩

theorem min_below_right : (u.min v).Below v := by
  rw [min_eq]
  exact ⟨min_le_right _ _, min_le_right _ _, min_le_right _ _⟩

theorem below_max_left : u.Below (u.max v) := by
  rw [max_eq]
  exact ⟨le_max_left _ _, le_max_left _ _, le_max_left _ _⟩

theorem below_max_right : v.Below (u.max v) := by
  rw [max_eq]
  exact ⟨le_max_right _ _, le_max_right _ _, le_max_right _ _⟩

theorem max_below (hu : u.Below m) (hv : v.Below m) : (u.max v).Below m := by
  rw [max_eq]
  exact ⟨max_le hu.x hv.x, max_le hu.y hv.y, max_le hu.z hv.z⟩

theorem below_min (hu : m.Below u) (hv : m.Below v) : m.Below (u.min v) := by
  rw [min_eq]
  exact ⟨le_min hu.x hv.x, le_min hu.y hv.y, le_min hu.z hv.z⟩

/-- A fold that only lowers a vector ends below its start and below everything on the way. -/
theorem foldl_below {β : Type} {f : Vec3 ℝ → β → Vec3 ℝ} {g : β → Vec3 ℝ}
    (hf : ∀ m b, (f m b).Below m ∧ (f m b).Below (g b)) (bs : List β) (m : Vec3 ℝ) :
    (bs.foldl f m).Below m ∧ ∀ b ∈ bs, (bs.foldl f m).Below (g b) := by
  induction bs generalizing m with
  | nil => exact ⟨below_refl m, fun b hb => absurd hb List.not_mem_nil⟩
  | cons b bs ih =>
    rw [List.foldl_cons]
    obtain ⟨h1, h2⟩ := ih (f m b)
    refine ⟨h1.trans (hf m b).1, fun c hc => ?_⟩
    rcases List.mem_cons.mp hc with rfl | hc
    · exact h1.trans (hf m c).2
    · exact h2 c hc

/-- A fold that only raises a vector ends above its start and above everything on the way. -/
theorem below_foldl {β : Type} {f : Vec3 ℝ → β → Vec3 ℝ} {g : β → Vec3 ℝ}
    (hf : ∀ m b, m.Below (f m b) ∧ (g b).Below (f m b)) (bs : List β) (m : Vec3 ℝ) :
    m.Below (bs.foldl f m) ∧ ∀ b ∈ bs, (g b).Below (bs.foldl f m) := by
  induction bs generalizing m with
  | nil => exact ⟨below_refl m, fun b hb => absurd hb List.not_mem_nil⟩
  | cons b bs ih =>
    rw [List.foldl_cons]
    obtain ⟨h1, h2⟩ := ih (f m b)
    refine ⟨(hf m b).1.trans h1, fun c hc => ?_⟩
    rcases List.mem_cons.mp hc with rfl | hc
    · exact (hf m c).2.trans h1
    · exact h2 c hc

theorem minimum_below (h : minimum vs = some m) (hv : v ∈ vs) : m.Below v := by
  cases vs with
  | nil => exact absurd hv List.not_mem_nil
  | cons w vs =>
    obtain rfl : vs.foldl min w = m := by simpa [minimum] using h
    obtain ⟨h1, h2⟩ := foldl_below (g := id) (fun m b => ⟨min_below_left, min_below_right⟩) vs w
    rcases List.mem_cons.mp hv with rfl | hv
    · exact h1
    · exact h2 v hv

theorem below_maximum (h : maximum vs = some m) (hv : v ∈ vs) : v.Below m := by
  cases vs with
  | nil => exact absurd hv List.not_mem_nil
  | cons w vs =>
    obtain rfl : vs.foldl max w = m := by simpa [maximum] using h
    obtain ⟨h1, h2⟩ := below_foldl (g := id) (fun m b => ⟨below_max_left, below_max_right⟩) vs w
    rcases List.mem_cons.mp hv with rfl | hv
    · exact h1
    · exact h2 v hv

/-- A member above all members is the greatest corner. -/
theorem maximum_eq_of_mem (hmem : m ∈ vs) (hm : ∀ v ∈ vs, v.Below m) : maximum vs = some m := by
  cases vs with
  | nil => cases hmem
  | cons v vs =>
    obtain ⟨hv, hvs⟩ := List.forall_mem_cons.mp hm
    have habove : (vs.foldl max v).Below m :=
      List.foldlRecOn vs max (motive := (·.Below m)) hv fun u hu w hw => max_below hu (hvs w hw)
    exact congrArg some (habove.antisymm (below_maximum rfl hmem))

/-- A member below all members is the least corner. -/
theorem minimum_eq_of_mem (hmem : m ∈ vs) (hm : ∀ v ∈ vs, m.Below v) : minimum vs = some m := by
  cases vs with
  | nil => cases hmem
  | cons v vs =>
    obtain ⟨hv, hvs⟩ := List.forall_mem_cons.mp hm
    have hbelow : m.Below (vs.foldl min v) :=
      List.foldlRecOn vs min (motive := m.Below) hv fun u hu w hw => below_min hu (hvs w hw)
    exact congrArg some ((minimum_below rfl hmem).antisymm hbelow)

theorem minimum_eq_some (h : vs ≠ []) : minimum vs = some ((minimum vs).getD default) := by
  cases vs with
  | nil => exact absurd rfl h
  | cons w vs => rfl

theorem maximum_eq_some (h : vs ≠ []) : maximum vs = some ((maximum vs).getD default) := by
  cases vs with
  | nil => exact absurd rfl h
  | cons w vs => rfl

end Vec3

/-! ## Images of boxes -/

section Image

open Primitive (corners)

variable {lo hi q : Vec3 ℝ}

theorem mem_corners {x y z : ℝ} (hx : x ∈ [lo.x, hi.x]) (hy : y ∈ [lo.y, hi.y])
    (hz : z ∈ [lo.z, hi.z]) :
    (⟨x, y, z⟩ : Vec3 ℝ) ∈ corners lo hi := by
  simp only [corners, List.mem_flatMap, List.mem_map]
  exact ⟨x, hx, y, hy, z, hz, rfl⟩

/-- On an interval, a multiple is least at one of the ends. -/
theorem exists_end_le (a : ℝ) {l h t : ℝ} (hl : l ≤ t) (hh : t ≤ h) :
    ∃ e ∈ [l, h], e * a ≤ t * a := by
  rcases le_total 0 a with ha | ha
  · exact ⟨l, List.mem_cons_self, mul_le_mul_of_nonneg_right hl ha⟩
  · exact ⟨h, by simp, mul_le_mul_of_nonpos_right hh ha⟩

/-- On a box, a linear function is least at one of the corners. -/
theorem exists_corner_le (a b c : ℝ) (hq : InBounds (lo, hi) q) :
    ∃ v ∈ corners lo hi, v.x * a + v.y * b + v.z * c ≤ q.x * a + q.y * b + q.z * c := by
  obtain ⟨x, hx, hxa⟩ := exists_end_le a hq.1.x hq.2.x
  obtain ⟨y, hy, hyb⟩ := exists_end_le b hq.1.y hq.2.y
  obtain ⟨z, hz, hzc⟩ := exists_end_le c hq.1.z hq.2.z
  refine ⟨⟨x, y, z⟩, mem_corners hx hy hz, ?_⟩
  show x * a + y * b + z * c ≤ q.x * a + q.y * b + q.z * c
  linarith

theorem exists_le_corner (a b c : ℝ) (hq : InBounds (lo, hi) q) :
    ∃ v ∈ corners lo hi, q.x * a + q.y * b + q.z * c ≤ v.x * a + v.y * b + v.z * c := by
  obtain ⟨v, hv, h⟩ := exists_corner_le (-a) (-b) (-c) hq
  exact ⟨v, hv, by linarith⟩

/-- The box around the images of the corners of a box contains the images of all its points. -/
theorem inBounds_image (m : Motion ℝ) {l h : Vec3 ℝ}
    (hl : Vec3.minimum ((corners lo hi).map m.applyRow) = some l)
    (hh : Vec3.maximum ((corners lo hi).map m.applyRow) = some h) (hq : InBounds (lo, hi) q) :
    InBounds (l, h) (m.applyRow q) := by
  have low : ∀ v ∈ corners lo hi, l.Below (m.applyRow v) :=
    fun v hv => Vec3.minimum_below hl (List.mem_map_of_mem hv)
  have high : ∀ v ∈ corners lo hi, (m.applyRow v).Below h :=
    fun v hv => Vec3.below_maximum hh (List.mem_map_of_mem hv)
  refine ⟨⟨?_, ?_, ?_⟩, ⟨?_, ?_, ?_⟩⟩
  · obtain ⟨v, hv, hle⟩ := exists_corner_le m.rotation.row1.x m.rotation.row1.y m.rotation.row1.z hq
    exact (low v hv).x.trans (add_le_add_left hle _)
  · obtain ⟨v, hv, hle⟩ := exists_corner_le m.rotation.row2.x m.rotation.row2.y m.rotation.row2.z hq
    exact (low v hv).y.trans (add_le_add_left hle _)
  · obtain ⟨v, hv, hle⟩ := exists_corner_le m.rotation.row3.x m.rotation.row3.y m.rotation.row3.z hq
    exact (low v hv).z.trans (add_le_add_left hle _)
  · obtain ⟨v, hv, hle⟩ := exists_le_corner m.rotation.row1.x m.rotation.row1.y m.rotation.row1.z hq
    exact (add_le_add_left hle _).trans (high v hv).x
  · obtain ⟨v, hv, hle⟩ := exists_le_corner m.rotation.row2.x m.rotation.row2.y m.rotation.row2.z hq
    exact (add_le_add_left hle _).trans (high v hv).y
  · obtain ⟨v, hv, hle⟩ := exists_le_corner m.rotation.row3.x m.rotation.row3.y m.rotation.row3.z hq
    exact (add_le_add_left hle _).trans (high v hv).z

/-- On an interval, the distance to a number is greatest at one of the ends. -/
theorem exists_end_sq_le (c : ℝ) {l h t : ℝ} (hl : l ≤ t) (hh : t ≤ h) :
    ∃ e ∈ [l, h], (t - c) ^ 2 ≤ (e - c) ^ 2 := by
  rcases le_total c t with hc | hc
  · exact ⟨h, by simp, by nlinarith⟩
  · exact ⟨l, List.mem_cons_self, by nlinarith⟩

/-- On a box, the distance to a point is greatest at one of the corners. -/
theorem exists_norm_sub_le (c : Vec3 ℝ) (hq : InBounds (lo, hi) q) :
    ∃ v ∈ corners lo hi, (q - c).norm ≤ (v - c).norm := by
  obtain ⟨x, hx, hxc⟩ := exists_end_sq_le c.x hq.1.x hq.2.x
  obtain ⟨y, hy, hyc⟩ := exists_end_sq_le c.y hq.1.y hq.2.y
  obtain ⟨z, hz, hzc⟩ := exists_end_sq_le c.z hq.1.z hq.2.z
  refine ⟨⟨x, y, z⟩, mem_corners hx hy hz, Vec3.norm_le_norm ?_⟩
  simp only [Vec3.sub_def, Vec3.normSq]
  linarith

end Image

end Clearance
