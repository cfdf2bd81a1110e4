import Mathlib.Algebra.GroupWithZero.Nat
import Mathlib.Algebra.Order.BigOperators.Group.List
import Mathlib.Algebra.Order.Group.Nat
import Clearance.Proofs.Field.Cache

/-!
# What handing out a field costs

A field that is handed out has one more owner, and that is all that changes in the entries. This
holds of every cache, whatever was done to it before.

* `FieldCache.owners_of_acquire`: the owners under each key afterwards.
* `FieldCache.held`, `FieldCache.held_of_acquire`: all owners together, which become more.
-/

namespace Clearance.FieldCache

variable {α : Type}

/-- The owners of all fields together. -/
def held (c : FieldCache α) : Nat := (c.entries.map CacheEntry.owners).sum

theorem SameEntries.held_eq {c d : FieldCache α} (h : SameEntries c d) : c.held = d.held := by
  rw [held, held, h]

theorem held_enter (c : FieldCache α) (key : FieldKey α) (field : DistanceField α) :
    (c.enter key field).held = c.held + 1 := by
  simp [held, enter]

variable [Scalar α]

/-- An entry with one more owner, if it stands under a key. -/
def lend (key : FieldKey α) (e : CacheEntry α) : CacheEntry α :=
  { e with owners := e.owners + if e.key.same key then 1 else 0 }

theorem entries_setOwners_succ (c : FieldCache α) (key : FieldKey α) :
    (c.setOwners key (· + 1)).entries = c.entries.map (lend key) := by
  rw [setOwners, ← List.filterMap_eq_map]
  refine List.filterMap_congr fun e _ => ?_
  by_cases h : e.key.same key = true <;> simp [lend, h]

theorem find?_setOwners_succ (c : FieldCache α) (key k : FieldKey α) :
    (c.setOwners key (· + 1)).find? k = (c.find? k).map (lend key) := by
  rw [find?, find?, entries_setOwners_succ, List.find?_map]
  rfl

/-- One more owner of a field that is there is one more owner of all fields, or more. -/
theorem held_setOwners_succ {c : FieldCache α} {key : FieldKey α} {e : CacheEntry α}
    (h : c.find? key = some e) : c.held < (c.setOwners key (· + 1)).held := by
  rw [held, held, entries_setOwners_succ, List.map_map]
  refine List.sum_lt_sum _ _ (fun _ _ => Nat.le_add_right _ _)
    ⟨e, List.mem_of_find?_eq_some h, ?_⟩
  have hkey : e.key.same key = true := by simpa using List.find?_some h
  simp [lend, hkey]

section

variable {c : FieldCache α} {settings : Settings α} {shapes : List (ShapeSource α)}
  {poses : Option (List (PoseSource α))} {params : GridParams α}
  {key : FieldKey α} {field : DistanceField α}

/-- A field that is handed out makes the owners more. -/
theorem held_of_acquire
    (h : (c.acquire settings shapes poses params).outcome = .ok (field, key)) :
    c.held < (c.acquire settings shapes poses params).cache.held := by
  have hway := acquiring c settings shapes poses params
  generalize c.acquire settings shapes poses params = acquired at h hway ⊢
  cases hway with
  | refused => cases h
  | kept _ hfind same =>
    rw [same.held_eq]
    exact held_setOwners_succ hfind
  | entered _ _ _ same =>
    rw [same.held_eq, held_enter]
    exact Nat.lt_succ_self _

variable [LawfulScalar α]

/-- A field that is handed out has one more owner, and no other field has. -/
theorem owners_of_acquire
    (h : (c.acquire settings shapes poses params).outcome = .ok (field, key)) (k : FieldKey α) :
    (c.acquire settings shapes poses params).cache.owners k =
      c.owners k + if key.same k then 1 else 0 := by
  have hway := acquiring c settings shapes poses params
  generalize c.acquire settings shapes poses params = acquired at h hway ⊢
  cases hway with
  | refused => cases h
  | @kept key' e d events _ hfind same =>
    obtain ⟨rfl, rfl⟩ := Prod.mk.inj (Except.ok.inj h)
    have hkey : e.key.same key' = true := by simpa using List.find?_some hfind
    rw [same.owners_eq, owners, owners, find?_setOwners_succ]
    cases hk : c.find? k with
    | none =>
      have hother : key'.same k ≠ true := fun h' => by
        have habsent := find?_eq_none.mp hk e (List.mem_of_find?_eq_some hfind)
        rw [FieldKey.same_trans hkey h'] at habsent
        cases habsent
      rw [if_neg hother]
      rfl
    | some d =>
      have hd : d.key.same k = true := by simpa using List.find?_some hk
      have hiff : d.key.same key' = true ↔ key'.same k = true :=
        ⟨fun h' => FieldKey.same_trans (FieldKey.same_symm h') hd,
          fun h' => FieldKey.same_trans hd (FieldKey.same_symm h')⟩
      simp only [Option.map_some, lend, hiff]
  | @entered key' field' d events _ hfind _ same =>
    obtain ⟨rfl, rfl⟩ := Prod.mk.inj (Except.ok.inj h)
    rw [same.owners_eq]
    exact owners_enter hfind field' k

end

end Clearance.FieldCache
