import Mathlib.Data.List.FinRange
import Mathlib.Data.List.Nodup
import Mathlib.Data.List.ProdSigma
import Clearance.Robot.Model

/-!
# Pairs of a list

The pairs of a list are its sublists of length two. In a list without repetitions no member is
paired with itself, and two members are paired once, in the order in which they stand.

* `mem_pairs`: the pairs are the sublists of length two.
* `nodup_iff_of_mem_pairs`: a list has a repetition if and only if some member is paired with itself.
* `nodup_pairs`: each pair once.
* `idxOf_lt_of_mem_pairs`, `not_mem_pairs_swap`: the earlier member comes first.
* `mem_pairs_or_swap`: two different members are paired.
* `pairs_eq_places`: the pairs are those of an earlier and a later place, in the order of the places.
-/

namespace Clearance.RobotModel

variable {β γ : Type}

theorem pairs_map (f : β → γ) (xs : List β) :
    pairs (xs.map f) = (pairs xs).map fun e => (f e.1, f e.2) := by
  induction xs with
  | nil => rfl
  | cons x xs ih => simp [pairs, ih]

theorem mem_pairs {xs : List β} {a b : β} : (a, b) ∈ pairs xs ↔ List.Sublist [a, b] xs := by
  induction xs with
  | nil => simp [pairs]
  | cons x xs ih =>
    rw [pairs, List.mem_append, ih, List.mem_map, List.sublist_cons_iff]
    constructor
    · rintro (⟨c, hc, heq⟩ | h)
      · cases heq
        exact .inr ⟨[b], rfl, List.singleton_sublist.mpr hc⟩
      · exact .inl h
    · rintro (h | ⟨rest, heq, h⟩)
      · exact .inr h
      · cases heq
        exact .inl ⟨b, List.singleton_sublist.mp h, rfl⟩

/-- Members of a pair are members of the list. -/
theorem mem_of_mem_pairs {xs : List β} {a b : β} (h : (a, b) ∈ pairs xs) : a ∈ xs ∧ b ∈ xs := by
  have hsub := (mem_pairs.mp h).subset
  exact ⟨hsub (by simp), hsub (by simp)⟩

/-- A list has no repetitions if no pair is of a member and itself. -/
theorem nodup_iff_of_mem_pairs {xs : List β} : xs.Nodup ↔ ∀ a b, (a, b) ∈ pairs xs → a ≠ b := by
  rw [List.nodup_iff_sublist]
  constructor
  · rintro h a _ hab rfl
    exact h a (mem_pairs.mp hab)
  · exact fun h a ha => h a a (mem_pairs.mpr ha) rfl

theorem nodup_pairs {xs : List β} (h : xs.Nodup) : (pairs xs).Nodup := by
  induction xs with
  | nil => exact List.nodup_nil
  | cons x xs ih =>
    obtain ⟨hx, hxs⟩ := List.nodup_cons.mp h
    rw [pairs, List.nodup_append]
    refine ⟨hxs.map fun _ _ e => (Prod.mk.inj e).2, ih hxs, ?_⟩
    rintro e he ⟨a, b⟩ hab rfl
    obtain ⟨c, -, heq⟩ := List.mem_map.mp he
    cases heq
    exact hx (mem_of_mem_pairs hab).1

/-- The earlier member of a pair comes first. -/
theorem idxOf_lt_of_mem_pairs [DecidableEq β] {xs : List β} (hxs : xs.Nodup) {a b : β} (h : (a, b) ∈ pairs xs) :
    xs.idxOf a < xs.idxOf b := by
  induction xs with
  | nil => cases h
  | cons x xs ih =>
    obtain ⟨hx, hxs⟩ := List.nodup_cons.mp hxs
    rw [pairs, List.mem_append, List.mem_map] at h
    rcases h with ⟨c, hc, heq⟩ | h
    · cases heq
      have hne : a ≠ b := fun e => hx (e ▸ hc)
      rw [List.idxOf_cons_self, List.idxOf_cons_ne _ hne]
      exact Nat.succ_pos _
    · have hmem := mem_of_mem_pairs h
      have ha : x ≠ a := fun e => hx (e ▸ hmem.1)
      have hb : x ≠ b := fun e => hx (e ▸ hmem.2)
      rw [List.idxOf_cons_ne _ ha, List.idxOf_cons_ne _ hb]
      exact Nat.succ_lt_succ (ih hxs h)

/-- Two members are paired in one order only. -/
theorem not_mem_pairs_swap {xs : List β} (hxs : xs.Nodup) {a b : β} (h : (a, b) ∈ pairs xs) : (b, a) ∉ pairs xs := by
  classical
  intro h'
  have hab := idxOf_lt_of_mem_pairs hxs h
  have hba := idxOf_lt_of_mem_pairs hxs h'
  omega

/-- Two different members are paired, in the order in which they stand. -/
theorem mem_pairs_or_swap {xs : List β} {a b : β} (ha : a ∈ xs) (hb : b ∈ xs) (hne : a ≠ b) :
    (a, b) ∈ pairs xs ∨ (b, a) ∈ pairs xs := by
  induction xs with
  | nil => cases ha
  | cons x xs ih =>
    rw [pairs, List.mem_append, List.mem_append, List.mem_map, List.mem_map]
    rcases List.mem_cons.mp ha with rfl | ha' <;> rcases List.mem_cons.mp hb with rfl | hb'
    · exact absurd rfl hne
    · exact .inl (.inl ⟨b, hb', rfl⟩)
    · exact .inr (.inl ⟨a, ha', rfl⟩)
    · exact (ih ha' hb').imp .inr .inr

/-- In an increasing list, the pairs are those of a smaller and a greater member. -/
theorem pairs_eq_filter [Preorder β] [DecidableLT β] {xs : List β} (h : xs.Pairwise (· < ·)) :
    pairs xs = (xs ×ˢ xs).filter fun e => e.1 < e.2 := by
  induction xs with
  | nil => rfl
  | cons x xs ih =>
    obtain ⟨hx, hxs⟩ := List.pairwise_cons.mp h
    have hfirst : (xs.map (Prod.mk x)).filter (fun e => e.1 < e.2) = xs.map (Prod.mk x) := by
      refine List.filter_eq_self.mpr fun e he => ?_
      obtain ⟨y, hy, rfl⟩ := List.mem_map.mp he
      exact decide_eq_true (hx y hy)
    have hrest : ∀ y ∈ xs, ((x :: xs).map (Prod.mk y)).filter (fun e => e.1 < e.2) =
        (xs.map (Prod.mk y)).filter fun e => e.1 < e.2 := by
      intro y hy
      rw [List.map_cons, List.filter_cons_of_neg (by simpa using (hx y hy).not_gt)]
    rw [pairs, ih hxs, List.product_cons, List.filter_append, List.map_cons,
      List.filter_cons_of_neg (by simp), hfirst]
    congr 1
    show _ = (xs.flatMap fun y => (x :: xs).map (Prod.mk y)).filter _
    rw [List.filter_flatMap]
    show (xs.flatMap fun y => xs.map (Prod.mk y)).filter _ = _
    rw [List.filter_flatMap]
    exact List.flatMap_congr fun y hy => (hrest y hy).symm

/-- The pairs of a list are those of an earlier and a later place, in the order of the places. -/
theorem pairs_eq_places (xs : List β) :
    pairs xs = ((List.finRange xs.length ×ˢ List.finRange xs.length).filter fun e => e.1 < e.2).map
      fun e => (xs.get e.1, xs.get e.2) := by
  rw [← pairs_eq_filter (List.pairwise_lt_finRange _), ← pairs_map, List.map_get_finRange]

end Clearance.RobotModel
