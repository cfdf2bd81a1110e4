import Clearance.Collision.Pair
import Clearance.Proofs.Number.Order

/-!
# The order of depth

The samples behind a collision are listed the deepest first. The order is specified by two
conditions that leave no choice: the list holds exactly the places of the distances that are not
positive, and of two places the one with the smaller distance comes first, or the smaller place
where the distances are equal. The program sorts by distance alone; that equal distances keep the
order of their places is the stability of the sort.

* `IsDepthOrder`: the specification, and `IsDepthOrder.unique`, that it determines the list.
* `pairwise_mergeSort_of_ties`: what stability is, for any comparison.
* `isDepthOrder_collidingPlaces`: the program's list satisfies it, also if some distances are not
  numbers.
-/

namespace Clearance

variable {α : Type} [Scalar α]

/-! ## Specification -/

/-- Whether one place comes before another: by distance, and by place where the distances are
    equal. -/
def Deeper (distances : List α) (i j : Nat) : Prop :=
  ∀ d e, distances[i]? = some d → distances[j]? = some e →
    Scalar.lt d e = true ∨ Scalar.eq d e = true ∧ i < j

/-- The places of the distances that are not positive, by ascending distance and then by ascending
    place. -/
structure IsDepthOrder (distances : List α) (places : List Nat) : Prop where
  mem_iff : ∀ i, i ∈ places ↔ ∃ d, distances[i]? = some d ∧ Scalar.le d 0 = true
  ordered : places.Pairwise (Deeper distances)

variable [LawfulScalar α]

theorem Deeper.asymm {distances : List α} {i j : Nat} {d e : α} (hi : distances[i]? = some d)
    (hj : distances[j]? = some e) (h : Deeper distances i j) : ¬Deeper distances j i := by
  intro h'
  have hd := h d e hi hj
  have he := h' e d hj hi
  rw [LawfulScalar.lt_iff, Scalar.eq_iff] at hd he
  rcases hd with ⟨h1, h2⟩ | ⟨⟨h1, h2⟩, h3⟩
  · rcases he with ⟨h4, _⟩ | ⟨⟨h4, _⟩, _⟩ <;> simp [h2] at h4
  · rcases he with ⟨_, h4⟩ | ⟨_, h4⟩
    · simp [h1] at h4
    · omega

/-- No place is listed twice in the order of depth. -/
theorem IsDepthOrder.nodup {distances : List α} {places : List Nat} (h : IsDepthOrder distances places) :
    places.Nodup := by
  refine List.Pairwise.imp_of_mem ?_ h.ordered
  rintro i j hi - hij rfl
  obtain ⟨d, hd, -⟩ := (h.mem_iff i).mp hi
  exact hij.asymm hd hd hij

/-- There is only one list in the order of depth. -/
theorem IsDepthOrder.unique {distances : List α} {ps qs : List Nat} (hp : IsDepthOrder distances ps)
    (hq : IsDepthOrder distances qs) : ps = qs := by
  have perm : ps.Perm qs := (List.perm_ext_iff_of_nodup hp.nodup hq.nodup).mpr fun i => by
    rw [hp.mem_iff, hq.mem_iff]
  refine List.Perm.eq_of_pairwise ?_ hp.ordered hq.ordered perm
  intro i j hi hj h h'
  obtain ⟨d, hd, _⟩ := (hp.mem_iff i).mp hi
  obtain ⟨e, he, _⟩ := (hq.mem_iff j).mp hj
  exact absurd h' (h.asymm hd he)

/-! ## Distances with their places -/

section Places

variable {β : Type}

/-- All distances with their places, in ascending order of the places. -/
def placedDistances (distances : List β) : List (Nat × β) := (List.range distances.length).zip distances

theorem mem_placedDistances {distances : List β} {e : Nat × β} :
    e ∈ placedDistances distances ↔ distances[e.1]? = some e.2 := by
  obtain ⟨i, d⟩ := e
  rw [placedDistances]
  constructor
  · intro h
    obtain ⟨n, hn, he⟩ := List.mem_iff_getElem.mp h
    rw [List.getElem_zip, List.getElem_range, Prod.mk.injEq] at he
    obtain ⟨rfl, rfl⟩ := he
    exact List.getElem?_eq_getElem _
  · intro h
    obtain ⟨hi, hd⟩ := List.getElem?_eq_some_iff.mp h
    refine List.mem_iff_getElem.mpr ⟨i, by simpa using hi, ?_⟩
    rw [List.getElem_zip, List.getElem_range, hd]

theorem placedDistances_pairwise (distances : List β) :
    (placedDistances distances).Pairwise fun e f => e.1 < f.1 := by
  rw [List.pairwise_iff_getElem]
  intro i j hi hj h
  simpa [placedDistances] using h

theorem placedDistances_map_fst (distances : List β) :
    (placedDistances distances).map Prod.fst = List.range distances.length :=
  List.map_fst_zip (by simp)

/-- A stable sort keeps the order of members that are equal for the comparison. -/
theorem pairwise_mergeSort_of_ties {le : β → β → Bool} {R : β → β → Prop}
    (trans : ∀ a b c, le a b = true → le b c = true → le a c = true)
    (total : ∀ a b, (le a b || le b a) = true) {l : List β} (h : l.Pairwise R) :
    (l.mergeSort le).Pairwise fun a b => le a b = true ∧ (le b a = true → R a b) := by
  -- Members carry their positions through the sort, since equal ones could not be told apart after it.
  rw [← List.mergeSort_zipIdx, List.pairwise_map]
  have sorted := List.pairwise_mergeSort (List.zipIdxLE_trans trans) (List.zipIdxLE_total total) l.zipIdx
  have nodup : ((l.zipIdx.mergeSort (List.zipIdxLE le)).map Prod.snd).Nodup := by
    rw [((List.mergeSort_perm _ _).map Prod.snd).nodup_iff, List.zipIdx_map_snd]
    exact List.nodup_range'
  refine (sorted.and (List.pairwise_map.mp nodup)).imp_of_mem ?_
  rintro ⟨a, m⟩ ⟨b, n⟩ hm hn ⟨hle, hne⟩
  rw [List.mem_mergeSort, List.mem_zipIdx_iff_getElem?] at hm hn
  dsimp only at hm hn hne ⊢
  obtain ⟨hm', rfl⟩ := List.getElem?_eq_some_iff.mp hm
  obtain ⟨hn', rfl⟩ := List.getElem?_eq_some_iff.mp hn
  cases hab : le l[m] l[n] with
  | false => simp [List.zipIdxLE, hab] at hle
  | true =>
    refine ⟨rfl, fun hba => List.pairwise_iff_getElem.mp h m n hm' hn' ?_⟩
    have hmn : m ≤ n := by simpa [List.zipIdxLE, hab, hba] using hle
    exact Nat.lt_of_le_of_ne hmn hne

end Places

/-- The order of distances, made total: what is not a number comes last. -/
def distanceLE (e f : Nat × α) : Bool := Scalar.le e.2 f.2 || !(Scalar.le f.2 f.2)

theorem distanceLE_trans (e f g : Nat × α) (h : distanceLE e f = true)
    (h' : distanceLE f g = true) :
    distanceLE e g = true := by
  simp only [distanceLE, Bool.or_eq_true, Bool.not_eq_true'] at *
  rcases h' with h' | h'
  · rcases h with h | h
    · exact Or.inl (LawfulScalar.le_trans h h')
    · rw [(LawfulScalar.le_self_of_le h').1] at h
      cases h
  · exact Or.inr h'

theorem distanceLE_total (e f : Nat × α) : (distanceLE e f || distanceLE f e) = true := by
  simp only [distanceLE, Bool.or_eq_true, Bool.not_eq_true']
  cases he : Scalar.le e.2 e.2
  · exact Or.inr (Or.inr rfl)
  · cases hf : Scalar.le f.2 f.2
    · exact Or.inl (Or.inr rfl)
    · exact (LawfulScalar.le_total he hf).imp Or.inl Or.inl

omit [LawfulScalar α] in
theorem distanceLE_of_number {e f : Nat × α} (hf : Scalar.le f.2 f.2 = true) :
    distanceLE e f = Scalar.le e.2 f.2 := by
  rw [distanceLE, hf, Bool.not_true, Bool.or_false]

/-- Before a number a stable sort leaves what is smaller, or as large and of a smaller place. -/
theorem deeper_of_distanceLE {distances : List α} {e f : Nat × α} (he : distances[e.1]? = some e.2)
    (hf : distances[f.1]? = some f.2) (hnumber : Scalar.le f.2 f.2 = true) (hle : distanceLE e f = true)
    (hplace : distanceLE f e = true → e.1 < f.1) : Deeper distances e.1 f.1 := by
  intro d d' hd hd'
  obtain rfl : e.2 = d := Option.some.inj (he.symm.trans hd)
  obtain rfl : f.2 = d' := Option.some.inj (hf.symm.trans hd')
  rw [distanceLE_of_number hnumber] at hle
  rw [distanceLE_of_number (LawfulScalar.le_self_of_le hle).1] at hplace
  rw [LawfulScalar.lt_iff, Scalar.eq_iff]
  cases hge : Scalar.le f.2 e.2 with
  | true => exact .inr ⟨⟨hle, rfl⟩, hplace hge⟩
  | false => exact .inl ⟨hle, rfl⟩

/-! ## The program's list -/

/-- The distances that are not positive, with their places, in ascending order of the places. -/
def collidingEntries (distances : List α) : List (Nat × α) :=
  ((List.range distances.length).zip distances).filter fun e => Scalar.le e.2 0

omit [LawfulScalar α] in
theorem mem_collidingEntries {distances : List α} {e : Nat × α} :
    e ∈ collidingEntries distances ↔ distances[e.1]? = some e.2 ∧ Scalar.le e.2 0 = true :=
  List.mem_filter.trans (and_congr_left fun _ => mem_placedDistances)

omit [LawfulScalar α] in
theorem collidingEntries_pairwise (distances : List α) :
    (collidingEntries distances).Pairwise fun e f => e.1 < f.1 :=
  (placedDistances_pairwise distances).filter _

omit [LawfulScalar α] in
/-- The places that are listed are those of the distances that are not positive. -/
theorem mem_collidingPlaces {distances : List α} {i : Nat} :
    i ∈ collidingPlaces distances ↔ ∃ d, distances[i]? = some d ∧ Scalar.le d 0 = true := by
  show i ∈ List.map Prod.fst (List.mergeSort (collidingEntries distances) _) ↔ _
  rw [List.mem_map]
  constructor
  · rintro ⟨⟨_, d⟩, hd, rfl⟩
    exact ⟨d, mem_collidingEntries.mp (List.mem_mergeSort.mp hd)⟩
  · rintro ⟨d, hd⟩
    exact ⟨(i, d), List.mem_mergeSort.mpr (mem_collidingEntries.mpr hd), rfl⟩

/-- Among the distances that are not positive the order is total as it is. -/
theorem mergeSort_collidingEntries (distances : List α) :
    (collidingEntries distances).mergeSort (fun e f => Scalar.le e.2 f.2) =
      (collidingEntries distances).mergeSort distanceLE := by
  have h := List.map_mergeSort (r := fun e f : Nat × α => Scalar.le e.2 f.2) (s := distanceLE)
    (f := id) (l := collidingEntries distances) fun e _ f hf =>
      (distanceLE_of_number (LawfulScalar.le_self_of_le (mem_collidingEntries.mp hf).2).1).symm
  simpa using h

/-- The program lists the colliding places in the order of depth. -/
theorem isDepthOrder_collidingPlaces (distances : List α) :
    IsDepthOrder distances (collidingPlaces distances) where
  mem_iff _ := mem_collidingPlaces
  ordered := by
    show (List.map Prod.fst (List.mergeSort (collidingEntries distances) _)).Pairwise _
    rw [mergeSort_collidingEntries, List.pairwise_map]
    refine (pairwise_mergeSort_of_ties distanceLE_trans distanceLE_total
      (collidingEntries_pairwise distances)).imp_of_mem ?_
    intro e f he hf h
    obtain ⟨he, -⟩ := mem_collidingEntries.mp (List.mem_mergeSort.mp he)
    obtain ⟨hf, hle⟩ := mem_collidingEntries.mp (List.mem_mergeSort.mp hf)
    exact deeper_of_distanceLE he hf (LawfulScalar.le_self_of_le hle).1 h.1 h.2

end Clearance
