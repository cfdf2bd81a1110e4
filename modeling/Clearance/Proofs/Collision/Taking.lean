import Clearance.Proofs.Collision.Accounts
import Clearance.Proofs.Field.Lending

/-!
# What building bodies takes from a cache

Between two inventories bodies were built whose fields are kept in a cache, and at most one more
field was obtained for a body that could then not be finished. The entries of the cache tell all of
this: each of the fields has one more owner.

* `Inventory.Took`: the relation. It holds of two inventories one after the other
  (`Inventory.Took.trans`).
* `Inventory.took_build`, `Inventory.took_failed_build`: building one body, with and without success.
-/

namespace Clearance.Inventory

variable {α : Type} [Scalar α] {id : Nat} {inv inv₁ inv' : Inventory α}

/-- From `inv` to `inv'` the given bodies were built, with fields from a cache, and at most one more
    field was obtained from it. -/
structure Took (id : Nat) (inv inv' : Inventory α) (built : List (Body α))
    (lost : Option (FieldKey α)) : Prop where
  bodies : inv'.bodies.toList = inv.bodies.toList ++ built
  size : inv'.caches.size = inv.caches.size
  owners : ∀ key, (inv'.cache id).owners key =
    (inv.cache id).owners key + built.countP (·.holds id key) + lost.toList.countP (·.same key)
  held : (inv.cache id).held + built.length + lost.toList.length ≤ (inv'.cache id).held
  same : built = [] → lost = none → FieldCache.SameEntries (inv'.cache id) (inv.cache id)

/-- Nothing was taken. -/
theorem took_nothing (hbodies : inv'.bodies = inv.bodies)
    (hsize : inv'.caches.size = inv.caches.size)
    (h : FieldCache.SameEntries (inv'.cache id) (inv.cache id)) : Took id inv inv' [] none where
  bodies := by rw [hbodies, List.append_nil]
  size := hsize
  owners key := h.owners_eq key
  held := h.held_eq.ge
  same _ _ := h

/-- What was taken first and what was taken then was taken from the beginning to the end. -/
theorem Took.trans {first then' : List (Body α)} {lost : Option (FieldKey α)}
    (h : Took id inv inv₁ first none) (h' : Took id inv₁ inv' then' lost) :
    Took id inv inv' (first ++ then') lost where
  bodies := by rw [h'.bodies, h.bodies, List.append_assoc]
  size := h'.size.trans h.size
  owners key := by
    rw [h'.owners, h.owners, List.countP_append]
    simp only [Option.toList_none, List.countP_nil]
    omega
  held := by
    have hfirst := h.held
    have hthen := h'.held
    rw [List.length_append]
    simp only [Option.toList_none, List.length_nil] at hfirst
    omega
  same hnone hlost := by
    obtain ⟨hfirst, hthen⟩ := List.append_eq_nil_iff.mp hnone
    exact (h'.same hthen hlost).trans (h.same hfirst rfl)

/-- The entries of the cache are as before if and only if nothing was taken. -/
theorem Took.same_iff {built : List (Body α)} {lost : Option (FieldKey α)}
    (h : Took id inv inv' built lost) :
    FieldCache.SameEntries (inv'.cache id) (inv.cache id) ↔ built = [] ∧ lost = none := by
  constructor
  · intro hsame
    have hheld := h.held
    rw [hsame.held_eq] at hheld
    have hbuilt : built.length = 0 := by omega
    have hlost : lost.toList.length = 0 := by omega
    exact ⟨List.length_eq_zero_iff.mp hbuilt,
      Option.toList_eq_nil_iff.mp (List.length_eq_zero_iff.mp hlost)⟩
  · rintro ⟨hbuilt, hlost⟩
    exact h.same hbuilt hlost

/-! ## Building one body -/

variable {source : BodySource α} {params : BodyParams α}

/-- A body that cannot be finished leaves what obtaining its field left. -/
theorem run_build_unfinished {shapes : List (PlacedShape α)} {field : DistanceField α}
    {hold : Option (FieldHold α)} {f : Fault} (hs : placedShapes source = .ok shapes)
    (hc : Body.checkSpacing params.spacing = .ok ())
    (ho : (obtainField shapes params).run inv = (.ok (field, hold), inv'))
    (hf : finish source params shapes field hold = .error f) :
    (build source params).run inv = (.error (.fault f), inv') := by
  unfold build
  rw [run_bind, run_liftM, hs]
  dsimp only
  rw [run_bind, run_liftM, hc]
  dsimp only
  rw [run_bind, ho]
  dsimp only
  rw [run_bind, run_attempt, hf]
  rfl

/-- A field that is obtained from a cache has one more owner, and nothing else changes. -/
theorem exists_lent [LawfulScalar α] {shapes : List (PlacedShape α)} {field : DistanceField α}
    {hold : Option (FieldHold α)} (hp : params.cache = some id) (hid : id < inv.caches.size)
    (ho : (obtainField shapes params).run inv = (.ok (field, hold), inv')) :
    ∃ key, hold = some ⟨id, key⟩ ∧ inv'.bodies = inv.bodies ∧
      inv'.caches.size = inv.caches.size ∧
      (∀ k, (inv'.cache id).owners k = (inv.cache id).owners k + if key.same k then 1 else 0) ∧
      (inv.cache id).held < (inv'.cache id).held := by
  obtain ⟨key, hacquired, hsome⟩ := obtainField_kept_ok hp ho
  obtain ⟨hbodies, hsize, hcache⟩ := cache_obtainField hp ho
  have hcache := hcache id
  rw [if_pos ⟨rfl, hid⟩] at hcache
  refine ⟨key, hsome, hbodies, hsize, fun k => ?_, ?_⟩
  · rw [hcache]
    exact FieldCache.owners_of_acquire hacquired k
  · rw [hcache]
    exact FieldCache.held_of_acquire hacquired

/-- A role that is none is found out last. -/
theorem finish_of_role {shapes : List (PlacedShape α)} {field : DistanceField α}
    {hold : Option (FieldHold α)} {role : BodyRole α} {f : Fault} {b : Body α}
    (hrole : source.role = .error f)
    (h : finish { source with role := .ok role } params shapes field hold = .ok b) :
    finish source params shapes field hold = .error f := by
  unfold finish at h ⊢
  obtain ⟨_, hspacing, h⟩ := bind_eq_ok.mp h
  obtain ⟨_, hsamples, h⟩ := bind_eq_ok.mp h
  obtain ⟨_, hsphere, -⟩ := bind_eq_ok.mp h
  simp only [hspacing, hsamples, hsphere, hrole, bind, Except.bind]

theorem name_finish {shapes : List (PlacedShape α)} {field : DistanceField α}
    {hold : Option (FieldHold α)} {b : Body α}
    (h : finish source params shapes field hold = .ok b) : b.name = source.name := by
  unfold finish at h
  obtain ⟨_, -, h⟩ := bind_eq_ok.mp h
  obtain ⟨_, -, h⟩ := bind_eq_ok.mp h
  obtain ⟨_, -, h⟩ := bind_eq_ok.mp h
  obtain ⟨_, -, h⟩ := bind_eq_ok.mp h
  cases h
  rfl

/-- A body that is built owns its field. -/
theorem took_build [LawfulScalar α] (hp : params.cache = some id) (hid : id < inv.caches.size)
    {place : Nat} (h : (build source params).run inv = (.ok place, inv')) :
    ∃ b : Body α, b.name = source.name ∧ Took id inv inv' [b] none := by
  have hb := building source params inv
  rw [h] at hb
  cases hb with
  | @entered shapes field hold inv₁ b hs hc ho hf =>
    obtain ⟨key, rfl, hbodies, hsize, howners, hheld⟩ := exists_lent hp hid ho
    have hhold : b.hold? = some ⟨id, key⟩ := by
      obtain ⟨_, _, _, -, -, -, -, hcontent⟩ := finish_eq_ok hf
      rw [Body.hold?, hcontent]
      rfl
    refine ⟨b, name_finish hf, ?_, hsize, fun k => ?_, hheld, fun h => absurd h (List.cons_ne_nil b [])⟩
    · rw [Array.toList_push, hbodies]
    · refine (howners k).trans ?_
      simp [Body.holds, hhold]

/-- A body that cannot be built costs a field if it fails late, and else nothing. -/
theorem took_failed_build [LawfulScalar α] (hp : params.cache = some id)
    (hid : id < inv.caches.size) {e : Error α}
    (h : (build source params).run inv = (.error e, inv')) :
    ∃ lost, Took id inv inv' [] lost ∧ (lost = none ↔ ¬FailsLate source params inv) := by
  by_cases hlate : FailsLate source params inv
  · obtain ⟨shapes, field, hold, inv₁, f, hs, hc, ho, hf⟩ := hlate
    obtain ⟨-, rfl⟩ := Prod.mk.inj (h.symm.trans (run_build_unfinished hs hc ho hf))
    obtain ⟨key, -, hbodies, hsize, howners, hheld⟩ := exists_lent hp hid ho
    refine ⟨some key, ⟨?_, hsize, fun k => ?_, hheld, nofun⟩, ?_⟩
    · rw [hbodies, List.append_nil]
    · rw [howners k]
      simp
    · exact iff_of_false nofun fun h => h ⟨_, _, _, _, _, hs, hc, ho, hf⟩
  · have hb := building source params inv
    rw [h] at hb
    refine ⟨none, ?_, iff_of_true rfl hlate⟩
    cases hb with
    | refused => exact took_nothing rfl rfl rfl
    | withoutField ho =>
      have hsame := sameAccounts_obtainField ho
      exact took_nothing hsame.bodies hsame.size (hsame.entries id)
    | unfinished hs hc ho hf => exact absurd ⟨_, _, _, _, _, hs, hc, ho, hf⟩ hlate

end Clearance.Inventory
