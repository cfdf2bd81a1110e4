import Clearance.Proofs.Collision.Aggregation
import Clearance.Proofs.Number.Binary64Order

/-!
# Verdicts

Two bodies collide if the least distance of their samples is not positive, and what is reported of
the collision are the samples whose own distances are not positive. The verdict folds a minimum, the
places of the samples come from a stable sort, and the two treat a distance that is not a number in
different ways: the minimum hands it on, so that the verdict is that there is no collision, and the
sort puts it last, where it is left out. They agree as long as all distances are numbers, infinite
ones included.

* `verdict_iff`: the verdict, said of the distances.
* `ascendingPlaces`, `collidingPlaces_eq_filter`: the places are what is left of the stable sort of
  all distances.
* `verdict_of_places`: the verdict and the places for distances of any kind.
* `Check.counts_iff`, `Check.pair_of_isNaN`: what follows for a pair that is looked at.
-/

namespace Clearance

variable {α : Type} [Scalar α]

/-! ## The places -/

theorem collidingPlaces_ne_nil_iff {distances : List α} :
    collidingPlaces distances ≠ [] ↔ ∃ d ∈ distances, Scalar.le d 0 = true := by
  constructor
  · intro h
    obtain ⟨i, hi⟩ := List.exists_mem_of_ne_nil _ h
    obtain ⟨d, hd, hle⟩ := mem_collidingPlaces.mp hi
    exact ⟨d, List.mem_of_getElem? hd, hle⟩
  · rintro ⟨d, hd, hle⟩
    obtain ⟨i, hi⟩ := List.mem_iff_getElem?.mp hd
    exact List.ne_nil_of_mem (mem_collidingPlaces.mpr ⟨d, hi, hle⟩)

/-- The places of all distances, by ascending distance. Equal distances keep the order of their
    places, and what is not a number comes last. -/
def ascendingPlaces (distances : List α) : List Nat :=
  ((placedDistances distances).mergeSort distanceLE).map Prod.fst

/-- Whether the distance at a place is not positive. -/
def isColliding (distances : List α) (i : Nat) : Bool := (distances[i]?).any fun d => Scalar.le d 0

theorem isColliding_iff {distances : List α} {i : Nat} :
    isColliding distances i = true ↔ ∃ d, distances[i]? = some d ∧ Scalar.le d 0 = true := by
  rw [isColliding, Option.any_eq_true]

/-- Every place is there once. -/
theorem ascendingPlaces_perm (distances : List α) :
    (ascendingPlaces distances).Perm (List.range distances.length) := by
  rw [← placedDistances_map_fst]
  exact (List.mergeSort_perm _ _).map Prod.fst

variable [LawfulScalar α]

/-- Numbers are in the order of depth. -/
theorem ascendingPlaces_pairwise (distances : List α) :
    (ascendingPlaces distances).Pairwise fun i j =>
      (∃ d, distances[j]? = some d ∧ Scalar.isNaN d = false) → Deeper distances i j := by
  rw [ascendingPlaces, List.pairwise_map]
  refine (pairwise_mergeSort_of_ties distanceLE_trans distanceLE_total
    (placedDistances_pairwise distances)).imp_of_mem ?_
  rintro e f he hf ⟨hle, hplace⟩ ⟨d, hd, hnumber⟩
  rw [List.mem_mergeSort, mem_placedDistances] at he hf
  obtain rfl : f.2 = d := Option.some.inj (hf.symm.trans hd)
  exact deeper_of_distanceLE he hf (Scalar.le_self_iff.mpr hnumber) hle hplace

/-- The program leaves out the positive distances first and sorts what is left; that comes to the
    same as sorting all distances first. -/
theorem collidingPlaces_eq_filter (distances : List α) :
    collidingPlaces distances = (ascendingPlaces distances).filter (isColliding distances) := by
  refine (isDepthOrder_collidingPlaces distances).unique ⟨fun i => ?_, ?_⟩
  · rw [List.mem_filter, isColliding_iff, (ascendingPlaces_perm distances).mem_iff, List.mem_range]
    refine and_iff_right_of_imp ?_
    rintro ⟨d, hd, -⟩
    exact (List.getElem?_eq_some_iff.mp hd).1
  · refine ((ascendingPlaces_pairwise distances).filter _).imp_of_mem ?_
    intro i j _ hj h
    obtain ⟨d, hd, hle⟩ := isColliding_iff.mp (List.mem_filter.mp hj).2
    exact h ⟨d, hd, Scalar.le_self_iff.mp (LawfulScalar.le_self_of_le hle).1⟩

/-! ## Verdict and places -/

/-- There is a collision if some distance is not positive and all of them are numbers. -/
theorem verdict_iff {distances : List α} :
    collides (Scalar.minimum distances) = true ↔
      (∃ d ∈ distances, Scalar.le d 0 = true) ∧ ∀ d ∈ distances, Scalar.isNaN d = false := by
  cases distances with
  | nil => simp [collides]
  | cons d rest =>
    show Scalar.le (rest.foldl Scalar.min d) 0 = true ↔ _
    simp only [Scalar.foldl_min_le_iff, Scalar.le_self_iff]

/-- The places are determined by the order of depth, each is listed once, and they are what a stable
    sort of all distances leaves of those that are not positive. The verdict is a collision if and only
    if there is such a place and all distances are numbers. -/
theorem verdict_of_places (distances : List α) :
    (collides (Scalar.minimum distances) = true ↔
      collidingPlaces distances ≠ [] ∧ ∀ d ∈ distances, Scalar.isNaN d = false) ∧
    (∀ places, IsDepthOrder distances places ↔ places = collidingPlaces distances) ∧
    (collidingPlaces distances).Nodup ∧
    collidingPlaces distances = (ascendingPlaces distances).filter (isColliding distances) := by
  have horder := isDepthOrder_collidingPlaces distances
  refine ⟨?_, fun places => ⟨fun h => h.unique horder, ?_⟩, horder.nodup, collidingPlaces_eq_filter distances⟩
  · rw [verdict_iff, collidingPlaces_ne_nil_iff]
  · rintro rfl
    exact horder

/-- Of five distances three are not positive, two of them equal, and one is infinite. -/
theorem verdict_of_places_mixed :
    let distances : List Float := [1 / 0, -1, 2, -3, -1]
    (∀ d ∈ distances, Scalar.isNaN d = false) ∧ collides (Scalar.minimum distances) = true ∧
      collidingPlaces distances = [3, 1, 4] ∧ IsDepthOrder distances [3, 1, 4] := by
  intro distances
  obtain ⟨hverdict, horder, -, -⟩ := verdict_of_places distances
  have hnumbers : ∀ d ∈ distances, Scalar.isNaN d = false := by decide +kernel
  have hplaces : collidingPlaces distances = [3, 1, 4] := by
    have hentries : collidingEntries distances = [(1, -1), (3, -3), (4, -1)] := by decide +kernel
    have h1 : Scalar.le (-1 : Float) (-3) = false := by decide +kernel
    have h2 : Scalar.le (-1 : Float) (-1) = true := by decide +kernel
    have h3 : Scalar.le (-3 : Float) (-1) = true := by decide +kernel
    show ((collidingEntries distances).mergeSort _).map Prod.fst = _
    simp [hentries, List.mergeSort, List.MergeSort.Internal.splitInTwo, h1, h2, h3]
  exact ⟨hnumbers, hverdict.mpr ⟨by simp [hplaces], hnumbers⟩, hplaces, (horder _).mpr hplaces.symm⟩

/-- A distance that is not a number hides a collision: the sample beside it is listed, but the verdict
    is that there is none. -/
theorem collision_hidden :
    let distances : List Float := [0 / 0, -1]
    collidingPlaces distances = [1] ∧ collides (Scalar.minimum distances) = false ∧
      ¬(collides (Scalar.minimum distances) = true ↔ collidingPlaces distances ≠ []) := by
  decide +kernel

/-! ## Pairs that are looked at -/

namespace Check

variable {request : CollisionRequest α} {p : PlacedPair α}

/-- Samples collide if there are some to report and all of their distances are numbers. -/
theorem collides_hits_iff {hits : List (Hit α)} :
    collides (Scalar.minimum (hits.map Hit.distance)) = true ↔
      collidingHits hits ≠ [] ∧ ∀ h ∈ hits, Scalar.isNaN h.distance = false := by
  rw [verdict_iff, List.forall_mem_map]
  refine and_congr_left fun _ => ?_
  constructor
  · rintro ⟨_, hd, hle⟩
    obtain ⟨h, hh, rfl⟩ := List.mem_map.mp hd
    exact List.ne_nil_of_mem (mem_collidingHits.mpr ⟨hh, hle⟩)
  · intro hne
    obtain ⟨h, hh⟩ := List.exists_mem_of_ne_nil _ hne
    obtain ⟨hh, hle⟩ := mem_collidingHits.mp hh
    exact ⟨_, List.mem_map_of_mem hh, hle⟩

/-- A pair counts as a collision if it is looked at, has samples to report, and all of its distances
    are numbers. -/
theorem counts_iff :
    counts request p = true ↔ (request.distance = true ∨ p.isFar = false) ∧
      collidingHits p.hits ≠ [] ∧ ∀ h ∈ p.hits, Scalar.isNaN h.distance = false := by
  rw [counts, Bool.and_eq_true_iff, Bool.or_eq_true_iff, Bool.not_eq_true', collides_hits_iff]

/-- A distance that is not a number lets a query pass over a pair, whatever its other distances are:
    no collision is recorded and no event reported. -/
theorem pair_of_isNaN {a b : PlacedBody α} (hp : PlacedPair.of a b = .ok p) {h : Hit α} (hmem : h ∈ p.hits)
    (hnan : Scalar.isNaN h.distance = true) (r : CollisionResult α) :
    pair request r a b = (seen request r p, [], .proceed) := by
  refine pair_of_not_counts hp ?_ r
  rw [← Bool.not_eq_true, counts_iff]
  rintro ⟨-, -, hnumbers⟩
  rw [hnumbers h hmem] at hnan
  cases hnan

end Check

end Clearance
