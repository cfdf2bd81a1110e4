import Clearance.Proofs.Collision.Building
import Clearance.Proofs.Field.Cache

/-!
# The accounts of an inventory

Every cache of an inventory counts for each key the bodies that own the field under it. Building a
body keeps the accounts unless it fails after the field was obtained, and releasing a body keeps
them, once or again.

* `Inventory.Accounted`: the invariant.
* `Inventory.FailsLate`: a body that cannot be finished although its field was obtained.
* `Inventory.accounted_build_ok`, `Inventory.accounted_build_error`,
  `Inventory.accounted_releaseBody`: the steps.
-/

namespace Clearance.Inventory

variable {α : Type} [Scalar α]

/-- The caches, of which there are `n`, are well kept and count the owners among the bodies. -/
structure Accounted (n : Nat) (inv : Inventory α) : Prop where
  size : inv.caches.size = n
  wellKept : ∀ id, (inv.cache id).WellKept
  owners : ∀ id key, (inv.cache id).owners key = inv.ownersOf id key

/-- The inventory with empty caches, of which there are `n`, and without bodies. -/
def start (settings : Settings α) (n : Nat) : Inventory α :=
  ⟨settings, Array.replicate n FieldCache.empty, #[], #[]⟩

omit [Scalar α] in
theorem cache_start (settings : Settings α) (n id : Nat) :
    (start settings n).cache id = FieldCache.empty := by
  rw [cache, start, Array.getD_eq_getD_getElem?, Array.getElem?_replicate]
  split <;> rfl

theorem accounted_start (settings : Settings α) (n : Nat) : Accounted n (start settings n) where
  size := Array.size_replicate
  wellKept id := by
    rw [cache_start]
    exact FieldCache.wellKept_empty
  owners id key := by
    rw [cache_start]
    rfl

/-! ## The parts of an inventory -/

/-- Two inventories with the same bodies, whose caches have the same entries. -/
structure SameAccounts (inv inv' : Inventory α) : Prop where
  bodies : inv'.bodies = inv.bodies
  size : inv'.caches.size = inv.caches.size
  entries : ∀ id, FieldCache.SameEntries (inv'.cache id) (inv.cache id)

theorem Accounted.of_same {n : Nat} {inv inv' : Inventory α} (h : Accounted n inv)
    (same : SameAccounts inv inv') : Accounted n inv' where
  size := same.size.trans h.size
  wellKept id := (same.entries id).wellKept (h.wellKept id)
  owners id key := by
    rw [(same.entries id).owners_eq, h.owners, ownersOf, ownersOf, same.bodies]

omit [Scalar α] in
theorem cache_setIfInBounds (inv : Inventory α) (place : Nat) (c : FieldCache α) (id : Nat) :
    ({ inv with caches := inv.caches.setIfInBounds place c } : Inventory α).cache id =
      if place = id ∧ place < inv.caches.size then c else inv.cache id := by
  rw [cache, cache, Array.getD_eq_getD_getElem?, Array.getD_eq_getD_getElem?,
    Array.getElem?_setIfInBounds]
  by_cases h : place = id
  · subst h
    by_cases hs : place < inv.caches.size
    · simp [hs]
    · simp [hs]
  · simp [h]

/-- One cache loses an owner. A cache that does not exist has none to lose. -/
theorem cache_dropHold (inv : Inventory α) (hold : FieldHold α) (id : Nat) :
    (inv.dropHold hold).cache id =
      if hold.cache = id then (inv.cache id).release hold.key else inv.cache id := by
  refine (cache_setIfInBounds inv hold.cache _ id).trans ?_
  by_cases hid : hold.cache = id
  · subst hid
    by_cases hs : hold.cache < inv.caches.size
    · rw [if_pos ⟨rfl, hs⟩, if_pos rfl]
    · have hempty : inv.cache hold.cache = FieldCache.empty := by
        rw [cache, Array.getD_eq_getD_getElem?, Array.getElem?_eq_none (Nat.le_of_not_lt hs)]
        rfl
      rw [if_neg fun h => hs h.2, if_pos rfl, hempty]
      rfl
  · rw [if_neg fun h => hid h.1, if_neg hid]

theorem ownersOf_push (inv : Inventory α) (b : Body α) (id : Nat) (key : FieldKey α) :
    ({ inv with bodies := inv.bodies.push b } : Inventory α).ownersOf id key =
      inv.ownersOf id key + if b.holds id key then 1 else 0 := by
  rw [ownersOf, ownersOf, Array.toList_push, List.countP_append, List.countP_singleton]

theorem ownersOf_released (inv : Inventory α) {place : Nat} {b : Body α}
    (h : inv.body? place = some b) (id : Nat) (key : FieldKey α) :
    ({ inv with bodies := inv.bodies.setIfInBounds place b.released } : Inventory α).ownersOf
    id key =
      inv.ownersOf id key - if b.holds id key then 1 else 0 := by
  obtain ⟨hp, hb⟩ := Array.getElem?_eq_some_iff.mp h
  have gone : b.released.holds id key = false := rfl
  rw [ownersOf, ownersOf, Array.toList_setIfInBounds, List.countP_set (by simpa using hp), gone]
  simp [hb]

/-! ## Building and releasing -/

/-- A body cannot be finished although its field was obtained. -/
def FailsLate (source : BodySource α) (params : BodyParams α) (inv : Inventory α) : Prop :=
  ∃ shapes field hold inv' f, placedShapes source = .ok shapes ∧
    Body.checkSpacing params.spacing = .ok () ∧
    (obtainField shapes params).run inv = (.ok (field, hold), inv') ∧
    finish source params shapes field hold = .error f

/-- The cache of bodies, if they have one, is among the first `n`. -/
def InRange (params : BodyParams α) (n : Nat) : Prop := ∀ id, params.cache = some id → id < n

omit [Scalar α] in
theorem sameAccounts_events (inv : Inventory α) (events : Array (Event α)) :
    SameAccounts inv { inv with events := events } := ⟨rfl, rfl, fun _ => rfl⟩

/-- Obtaining a field from a cache changes that cache and the events. -/
theorem cache_obtainField {inv inv' : Inventory α} {shapes : List (PlacedShape α)}
    {params : BodyParams α} {place : Nat} (hc : params.cache = some place)
    {outcome : Except (Error α) (DistanceField α × Option (FieldHold α))}
    (h : (obtainField shapes params).run inv = (outcome, inv')) :
    inv'.bodies = inv.bodies ∧ inv'.caches.size = inv.caches.size ∧
      ∀ id, inv'.cache id = if place = id ∧ place < inv.caches.size then
        ((inv.cache place).acquire inv.settings (sources shapes) (poseSources shapes)
          params.grid).cache else inv.cache id := by
  rw [obtainField_kept inv shapes hc, Prod.mk.injEq] at h
  obtain ⟨-, rfl⟩ := h
  exact ⟨rfl, Array.size_setIfInBounds, cache_setIfInBounds inv place _⟩

/-- A field that cannot be had costs nothing. -/
theorem sameAccounts_obtainField {inv inv' : Inventory α} {shapes : List (PlacedShape α)}
    {params : BodyParams α} {e : Error α}
    (h : (obtainField shapes params).run inv = (.error e, inv')) : SameAccounts inv inv' := by
  cases hc : params.cache with
  | none =>
    rw [obtainField_alone inv shapes hc, Prod.mk.injEq] at h
    rw [← h.2]
    exact sameAccounts_events inv _
  | some place =>
    obtain ⟨hbodies, hsize, hcache⟩ := cache_obtainField hc h
    refine ⟨hbodies, hsize, fun id => ?_⟩
    rw [hcache]
    split_ifs with hid
    · rw [← hid.1]
      exact FieldCache.acquire_error (obtainField_kept_error hc h)
    · rfl

variable [LawfulScalar α] {n : Nat}

/-- A field that is obtained is counted for one more body, the one that is to hold it. -/
theorem owners_obtainField {inv inv' : Inventory α} (h : Accounted n inv)
    {shapes : List (PlacedShape α)} {params : BodyParams α} (hp : InRange params n)
    {field : DistanceField α} {hold : Option (FieldHold α)}
    (ho : (obtainField shapes params).run inv = (.ok (field, hold), inv')) (b : Body α)
    (hb : b.hold? = hold) :
    inv'.caches.size = n ∧ inv'.bodies = inv.bodies ∧ (∀ id, (inv'.cache id).WellKept) ∧
      ∀ id key, (inv'.cache id).owners key =
        inv.ownersOf id key + if b.holds id key then 1 else 0 := by
  cases hc : params.cache with
  | none =>
    have hnone := (obtainField_alone_ok hc ho).2
    rw [obtainField_alone inv shapes hc, Prod.mk.injEq] at ho
    rw [← ho.2]
    refine ⟨h.size, rfl, h.wellKept, fun id key => ?_⟩
    rw [Body.holds, hb, hnone]
    exact h.owners id key
  | some place =>
    obtain ⟨key, hacquired, hsome⟩ := obtainField_kept_ok hc ho
    obtain ⟨hbodies, hsize, hcache⟩ := cache_obtainField hc ho
    obtain ⟨hkept, howners⟩ := FieldCache.acquire_ok (h.wellKept place) hacquired
    have hplace : place < inv.caches.size := h.size ▸ hp place hc
    refine ⟨hsize.trans h.size, hbodies, fun id => ?_, fun id k => ?_⟩
    · rw [hcache]
      split_ifs
      · exact hkept
      · exact h.wellKept id
    · rw [hcache, Body.holds, hb, hsome]
      by_cases hid : place = id
      · subst hid
        rw [if_pos ⟨rfl, hplace⟩, howners, h.owners]
        simp
      · rw [if_neg fun hh => hid hh.1, h.owners]
        simp [hid]

/-- A body that is built is counted where its field is kept. -/
theorem accounted_build_ok {inv inv' : Inventory α} (h : Accounted n inv) {source : BodySource α}
    {params : BodyParams α} (hp : InRange params n) {id : Nat}
    (hrun : (build source params).run inv = (.ok id, inv')) : Accounted n inv' := by
  have hb := building source params inv
  rw [hrun] at hb
  cases hb with
  | entered hs hc ho hf =>
    rename_i b
    obtain ⟨spacing, samples, role, -, -, -, -, hcontent⟩ := finish_eq_ok hf
    obtain ⟨hsize, hbodies, hkept, howners⟩ :=
      owners_obtainField h hp ho b (by rw [Body.hold?, hcontent]; rfl)
    refine ⟨hsize, hkept, fun id key => ?_⟩
    rw [ownersOf_push, ownersOf, hbodies]
    exact howners id key

omit [LawfulScalar α] in
/-- A body that cannot be built leaves the accounts as they were, unless it fails late. -/
theorem accounted_build_error {inv inv' : Inventory α} (h : Accounted n inv) {source : BodySource α}
    {params : BodyParams α} (hlate : ¬FailsLate source params inv) {e : Error α}
    (hrun : (build source params).run inv = (.error e, inv')) : Accounted n inv' := by
  have hb := building source params inv
  rw [hrun] at hb
  cases hb with
  | refused => exact h
  | withoutField ho => exact h.of_same (sameAccounts_obtainField ho)
  | unfinished hs hc ho hf => exact absurd ⟨_, _, _, _, _, hs, hc, ho, hf⟩ hlate

/-- Releasing a body keeps the accounts; a body that is released already owns nothing. -/
theorem accounted_releaseBody {inv : Inventory α} (h : Accounted n inv) (id : Nat) :
    Accounted n (inv.releaseBody id) := by
  unfold releaseBody
  cases hb : inv.body? id with
  | none => exact h
  | some b =>
    dsimp only
    cases hh : b.hold? with
    | none =>
      refine ⟨h.size, h.wellKept, fun id' key => ?_⟩
      rw [ownersOf_released inv hb, Body.holds, hh]
      exact h.owners id' key
    | some hold =>
      refine ⟨Array.size_setIfInBounds.trans h.size, fun id' => ?_, fun id' key => ?_⟩
      · show ((inv.dropHold hold).cache id').WellKept
        rw [cache_dropHold]
        split
        · exact FieldCache.release_wellKept (h.wellKept id') _
        · exact h.wellKept id'
      · rw [ownersOf_released (inv.dropHold hold) hb, Body.holds, hh]
        show ((inv.dropHold hold).cache id').owners key = inv.ownersOf id' key - _
        rw [cache_dropHold]
        by_cases hid : hold.cache = id'
        · rw [if_pos hid, FieldCache.owners_release (h.wellKept id'), h.owners]
          simp [hid]
        · rw [if_neg hid, h.owners]
          simp [hid]

end Clearance.Inventory
