import Clearance.Input.LooseMotion
import Clearance.Proofs.Geometry.Rigid

/-!
# One vector and rows of vectors

A motion in arrays has two paths for each of its actions: a single vector is a column that the
rotation multiplies from the left, several vectors are rows that its transpose multiplies from the
right. Both paths compute the same map, whatever the matrix is.

* `Tensor.ofFn_eq_ofPoints`, `Tensor.get_ofPoints`: the entries of an array of rows.
* `Tensor.dot_ofVec3`, `Tensor.dot_ofPoints`: products with a matrix, on columns and on rows.
* `LooseMotion.ActsByRows`: an action on arrays that is one map for a single vector and for rows.
* `LooseMotion.actsByRows_apply`, `LooseMotion.actsByRows_rotate`, `LooseMotion.actsByRows_toLocal`:
  the three actions of a motion.
* `LooseMotion.mul_ofMotion`, `LooseMotion.inverse_ofMotion`: composition and inverse in arrays.
-/

namespace Clearance

/-- In a list made of rows of one length, the place of an entry counts the rows before it. -/
theorem getElem?_flatMap_of_length {α β : Type} {g : β → List α} {m : ℕ} {xs : List β}
    (hlength : ∀ x ∈ xs, (g x).length = m) (i : ℕ) {j : ℕ} (hj : j < m) :
    (xs.flatMap g)[i * m + j]? = xs[i]?.bind fun x => (g x)[j]? := by
  induction xs generalizing i with
  | nil => simp
  | cons x xs ih =>
    have hx := hlength x List.mem_cons_self
    rw [List.flatMap_cons]
    cases i with
    | zero =>
      rw [Nat.zero_mul, Nat.zero_add, List.getElem?_append_left (by omega)]
      rfl
    | succ i =>
      rw [Nat.succ_mul, List.getElem?_append_right (by omega), hx,
        show i * m + m + j - m = i * m + j by omega, ih fun y hy => hlength y (List.mem_cons_of_mem x hy),
        List.getElem?_cons_succ]

namespace Tensor

/-! ## Entries -/

section

variable {α : Type}

/-- The entries of points stand three by three. -/
theorem getElem?_flatMap_toList (vs : List (Vec3 α)) (i : ℕ) {k : ℕ} (hk : k < 3) :
    (vs.flatMap Vec3.toList)[i * 3 + k]? = vs[i]?.bind (·.toList[k]?) :=
  getElem?_flatMap_of_length (g := Vec3.toList) (fun _ _ => rfl) i hk

theorem length_flatMap_toList (vs : List (Vec3 α)) : (vs.flatMap Vec3.toList).length = vs.length * 3 := by
  induction vs with
  | nil => rfl
  | cons v vs ih =>
    rw [List.flatMap_cons, List.length_append, ih, List.length_cons, Nat.succ_mul, Nat.add_comm]
    rfl

/-- The points of rows of three entries have these entries. -/
theorem flatMap_rowPoints {n : ℕ} {data : List α} (h : data.length = n * 3) :
    (rowPoints data).flatMap Vec3.toList = data := by
  induction n generalizing data with
  | zero =>
    rw [List.eq_nil_of_length_eq_zero (h.trans (Nat.zero_mul 3))]
    rfl
  | succ n ih =>
    match data, h with
    | x :: y :: z :: rest, h =>
      have hrest : rest.length = n * 3 := by
        simp only [List.length_cons] at h
        omega
      exact congrArg ([x, y, z] ++ ·) (ih hrest)
    | [], h | [_], h | [_, _], h =>
      simp only [List.length_cons, List.length_nil] at h
      omega

/-- Every array of rows of three entries is one of points. -/
theorem eq_ofPoints {t : Tensor α} {n : ℕ} (hshape : t.shape = [n, 3]) (hsize : t.data.size = n * 3) :
    t = ofPoints (rowPoints t.data.toList) := by
  obtain ⟨shape, data⟩ := t
  subst hshape
  have hentries : (rowPoints data.toList).flatMap Vec3.toList = data.toList := flatMap_rowPoints hsize
  have hlength : (rowPoints data.toList).length = n := by
    have h := length_flatMap_toList (rowPoints data.toList)
    rw [hentries, show data.toList.length = n * 3 from hsize] at h
    omega
  rw [ofPoints, hlength, hentries]

/-- The array whose rows are given entry by entry. -/
theorem ofFn_eq_ofPoints {n : ℕ} {f : List ℕ → α} {ws : List (Vec3 α)} (hn : ws.length = n)
    (h : ∀ (i : ℕ) (hi : i < ws.length), (⟨f [i, 0], f [i, 1], f [i, 2]⟩ : Vec3 α) = ws[i]) :
    ofFn [n, 3] f = ofPoints ws := by
  subst hn
  have hrows : (List.range ws.length).map (fun i => (⟨f [i, 0], f [i, 1], f [i, 2]⟩ : Vec3 α)) = ws :=
    List.ext_getElem (by simp) fun i hi _ => by
      rw [List.getElem_map, List.getElem_range]
      exact h i (by simpa using hi)
  have hentries : (indices [ws.length, 3]).map f = ws.flatMap Vec3.toList := by
    conv_rhs => rw [← hrows, List.flatMap_map]
    rw [indices, List.map_flatMap]
    rfl
  rw [ofFn, ofPoints, hentries]

theorem addAxis_ofVec3 (v : Vec3 α) : (ofVec3 v).addAxis = .ok (ofPoints [v]) := rfl

variable [Scalar α]

theorem get_ofPoints {vs : List (Vec3 α)} {i k : ℕ} (hi : i < vs.length) (hk : k < 3) :
    (ofPoints vs).get [i, k] = vs[i].toList.getD k 0 := by
  have hoffset : offset [vs.length, 3] [i, k] = i * 3 + k := by
    simp [offset, volume, Nat.mod_eq_of_lt hi, Nat.mod_eq_of_lt hk]
  rw [get, ofPoints, hoffset, Array.getD_eq_getD_getElem?, List.getElem?_toArray,
    getElem?_flatMap_toList vs i hk, List.getElem?_eq_getElem hi, Option.bind_some, List.getD_eq_getElem?_getD]

/-! ## Entry by entry -/

/-- A single row is stretched to all rows. -/
theorem zipWith_ofPoints (f : α → α → α) (vs : List (Vec3 α)) (v : Vec3 α) :
    zipWith f (ofPoints vs) (ofPoints [v]) = .ok (ofPoints (vs.map (Vec3.zipWith f · v))) := by
  have hcommon : broadcastReversed? [3, vs.length] [3, 1] = some [3, vs.length] := by
    simp [broadcastReversed?]
  have hstretched : ∀ (ws : List (Vec3 α)) (i k : ℕ), (ofPoints ws).getStretched [i, k] = (ofPoints ws).get [i, k] :=
    fun _ _ _ => rfl
  have hsingle : ∀ i k : ℕ, (ofPoints [v]).get [i, k] = (ofPoints [v]).get [0, k] := fun i k => by
    simp [get, ofPoints, offset, Nat.mod_one]
  unfold zipWith
  rw [show (ofPoints vs).shape.reverse = [3, vs.length] from rfl,
    show (ofPoints [v]).shape.reverse = [3, 1] from rfl, hcommon]
  refine congrArg Except.ok (ofFn_eq_ofPoints (List.length_map _) fun i hi => ?_)
  rw [List.length_map] at hi
  simp only [hstretched, hsingle, get_ofPoints hi, Nat.ofNat_pos, Nat.one_lt_ofNat, Nat.lt_add_one,
    List.getElem_map]
  rfl

end

/-! ## Products -/

theorem sum_range_three (f : ℕ → ℝ) : Scalar.sum ((List.range 3).map f) = f 0 + f 1 + f 2 := by
  rw [show (List.range 3).map f = [f 0, f 1, f 2] from rfl]
  simp [Scalar.sum]

/-- A matrix times a column. -/
theorem dot_ofVec3 (m : Mat3 ℝ) (v : Vec3 ℝ) : (ofMat3 m).dot (ofVec3 v) = .ok (ofVec3 (m.mulVec v)) := by
  have h : (ofMat3 m).dot (ofVec3 v) = .ok (ofFn [3] fun index =>
      Scalar.sum ((List.range 3).map fun k => (ofMat3 m).get (index ++ [k]) * (ofVec3 v).get [k])) := rfl
  rw [h]
  simp only [sum_range_three]
  rfl

/-- Rows times a matrix. -/
theorem dot_ofPoints (vs : List (Vec3 ℝ)) (m : Mat3 ℝ) :
    (ofPoints vs).dot (ofMat3 m) = .ok (ofPoints (vs.map (Mat3.vecMul · m))) := by
  have h : (ofPoints vs).dot (ofMat3 m) = .ok (ofFn [vs.length, 3] fun index =>
      Scalar.sum ((List.range 3).map fun k =>
        (ofPoints vs).get (index.take 1 ++ [k]) * (ofMat3 m).get ([] ++ [k] ++ index.drop 1))) := rfl
  rw [h]
  refine congrArg Except.ok (ofFn_eq_ofPoints (List.length_map _) fun i hi => ?_)
  rw [List.length_map] at hi
  simp only [sum_range_three, List.take_succ_cons, List.take_zero, List.singleton_append, List.nil_append,
    List.drop_succ_cons, List.drop_zero, get_ofPoints hi, Nat.ofNat_pos, Nat.one_lt_ofNat, Nat.lt_add_one,
    List.getElem_map]
  rfl

/-- The product of two matrices. -/
theorem dot_ofMat3 (m n : Mat3 ℝ) : (ofMat3 m).dot (ofMat3 n) = .ok (ofMat3 (m.mul n)) :=
  dot_ofPoints m.toList n

end Tensor

/-! ## The actions of a motion -/

namespace LooseMotion

open Tensor (ofVec3 ofPoints)

/-- An action on arrays and one on lists of vectors that do to every vector what a map does: to one
    that stands alone, and to each row of an array of any number of rows. -/
structure ActsByRows (action : Tensor ℝ → Except (Error ℝ) (Tensor ℝ))
    (onList : List (Vec3 ℝ) → List (Vec3 ℝ)) (f : Vec3 ℝ → Vec3 ℝ) : Prop where
  single : ∀ v, action (ofVec3 v) = .ok (ofVec3 (f v))
  rows : ∀ {n : ℕ} {t : Tensor ℝ}, t.shape = [n, 3] → t.data.size = n * 3 →
    action t = .ok (ofPoints ((Tensor.rowPoints t.data.toList).map f))
  list : ∀ vs, onList vs = vs.map f

/-- Every array of rows holds a list of points, so it is enough to act on these. -/
theorem ActsByRows.of_points {action : Tensor ℝ → Except (Error ℝ) (Tensor ℝ)}
    {onList : List (Vec3 ℝ) → List (Vec3 ℝ)} {f : Vec3 ℝ → Vec3 ℝ}
    (hsingle : ∀ v, action (ofVec3 v) = .ok (ofVec3 (f v)))
    (hpoints : ∀ vs, action (ofPoints vs) = .ok (ofPoints (vs.map f)))
    (hlist : ∀ vs, onList vs = vs.map f) : ActsByRows action onList f where
  single := hsingle
  rows {n t} hshape hsize := by
    rw [← hpoints, ← Tensor.eq_ofPoints hshape hsize]
  list := hlist

variable (m n : Motion ℝ)

/-- A direction as a row is turned as it is as a column. -/
theorem rotateRow_eq_rotate : m.rotateRow = m.rotate :=
  funext fun v => (Mat3.mulVec_eq_vecMul m.rotation v).symm

theorem applyRow_eq_apply : m.applyRow = m.apply :=
  funext fun v => congrArg (· + m.shift) (congrFun (rotateRow_eq_rotate m) v)

theorem rowToLocal_eq_toLocal (p : Pose ℝ) : p.rowToLocal = p.toLocal :=
  funext fun v => (Mat3.mulVec_eq_vecMul p.rotation.transpose (v - p.position)).symm

theorem rotate_ofVec3 (v : Vec3 ℝ) : (ofMotion m).rotate (ofVec3 v) = .ok (ofVec3 (m.rotate v)) :=
  Fault.lift_eq_ok.mpr (Tensor.dot_ofVec3 m.rotation v)

theorem rotate_ofPoints (vs : List (Vec3 ℝ)) :
    (ofMotion m).rotate (ofPoints vs) = .ok (ofPoints (vs.map m.rotate)) := by
  rw [← rotateRow_eq_rotate]
  exact Fault.lift_eq_ok.mpr (Tensor.dot_ofPoints vs m.rotation.transpose)

theorem actsByRows_rotate : ActsByRows (ofMotion m).rotate m.rotateRows m.rotate :=
  .of_points (rotate_ofVec3 m) (rotate_ofPoints m) fun vs => by
    rw [Motion.rotateRows, rotateRow_eq_rotate]

theorem apply_ofPoints (vs : List (Vec3 ℝ)) :
    (ofMotion m).apply (ofPoints vs) = .ok (ofPoints (vs.map m.apply)) := by
  have hadd : (ofPoints (vs.map m.rotate)).add (ofPoints [m.shift]) = .ok (ofPoints (vs.map m.apply)) := by
    rw [Tensor.add, Tensor.zipWith_ofPoints, List.map_map]
    rfl
  exact bind_eq_ok.mpr ⟨_, rotate_ofPoints m vs, Fault.lift_eq_ok.mpr hadd⟩

theorem actsByRows_apply : ActsByRows (ofMotion m).apply m.applyRows m.apply :=
  .of_points (fun v => bind_eq_ok.mpr ⟨_, rotate_ofVec3 m v, rfl⟩) (apply_ofPoints m) fun vs => by
    rw [Motion.applyRows, applyRow_eq_apply]

theorem toLocal_ofPoints (p : Pose ℝ) (vs : List (Vec3 ℝ)) :
    (ofMotion p.toMotion).toLocal (ofPoints vs) = .ok (ofPoints (vs.map p.toLocal)) := by
  have hsub : (ofPoints vs).sub (ofPoints [p.position]) = .ok (ofPoints (vs.map (· - p.position))) :=
    Tensor.zipWith_ofPoints _ vs p.position
  have hdot := Tensor.dot_ofPoints (vs.map (· - p.position)) p.rotation
  rw [List.map_map, show (Mat3.vecMul · p.rotation) ∘ (· - p.position) = p.rowToLocal from rfl,
    rowToLocal_eq_toLocal] at hdot
  exact bind_eq_ok.mpr ⟨_, Fault.lift_eq_ok.mpr (Tensor.addAxis_ofVec3 p.position),
    bind_eq_ok.mpr ⟨_, Fault.lift_eq_ok.mpr hsub, Fault.lift_eq_ok.mpr hdot⟩⟩

theorem actsByRows_toLocal (p : Pose ℝ) : ActsByRows (ofMotion p.toMotion).toLocal p.rowsToLocal p.toLocal :=
  .of_points (fun v => Fault.lift_eq_ok.mpr (Tensor.dot_ofVec3 p.rotation.transpose (v - p.position)))
    (toLocal_ofPoints p) fun vs => by rw [Pose.rowsToLocal, rowToLocal_eq_toLocal]

/-! ## Composition and inverse -/

/-- Composing the arrays of two motions gives the arrays of their composition. -/
theorem mul_ofMotion : (ofMotion m).mul (ofMotion n) = .ok (ofMotion (m.mul n)) :=
  bind_eq_ok.mpr ⟨_, Fault.lift_eq_ok.mpr (Tensor.dot_ofMat3 m.rotation n.rotation),
    bind_eq_ok.mpr ⟨_, Fault.lift_eq_ok.mpr (Tensor.dot_ofVec3 m.rotation n.shift), rfl⟩⟩

theorem inverse_ofMotion : (ofMotion m).inverse = .ok (ofMotion m.inverse) := by
  have hneg : (ofVec3 (m.rotation.transpose.mulVec m.shift)).map (-·) = ofVec3 m.inverse.shift := by
    simp [Tensor.map, ofVec3, Vec3.toList, Motion.inverse]
  refine bind_eq_ok.mpr ⟨_, Fault.lift_eq_ok.mpr (Tensor.dot_ofVec3 m.rotation.transpose m.shift), ?_⟩
  rw [hneg]
  rfl

end LooseMotion

end Clearance
