import Mathlib.Logic.Relation
import Clearance.Proofs.Field.Transparency

/-!
# How long a field is kept

Owners ask a cache for fields and give each key back once at most; in between the cache may be
cleared. An owner from before a clearing can still give its key back, and the cache does not know
that the owner is none of those it counts: it counts one owner less, and drops the field if that was
the last one.

* `FieldCache.Ledger`: a cache with the keys that its owners have.
* `FieldCache.Ledger.Step`: asking, giving back and clearing.
* `FieldCache.Ledger.Sound`, `FieldCache.Ledger.sound_of_steps`: the owners that a cache counts are
  those that have the key since the last clearing, without those that it lost.
* `FieldCache.Ledger.contains_iff_of_steps`: how long a field is kept.
* `FieldCache.Ledger.exists_dropped`: a field that is dropped although it has an owner.
-/

namespace Clearance.FieldCache

/-- A cache and its owners: the keys that they have since the last clearing and since before it, and
    for each key how many owners the cache lost because owners from before gave it back. -/
structure Ledger (α : Type) where
  cache : FieldCache α
  current : List (FieldKey α)
  former : List (FieldKey α)
  lost : FieldKey α → Nat

namespace Ledger

variable {α : Type} [Scalar α]

/-- A new cache, which nobody has asked for anything. -/
def start : Ledger α := ⟨empty, [], [], fun _ => 0⟩

/-- How many of the keys are the same as a key. -/
def holders (keys : List (FieldKey α)) (k : FieldKey α) : Nat := keys.countP fun key => key.same k

/-- What happens to a cache: a field is handed out or refused, an owner gives back its key, or all
    fields are dropped. When an owner from before a clearing gives back its key, one owner since
    then is lost, unless there is none left; and there are never more owners lost than have the
    key. -/
inductive Step (l : Ledger α) : Ledger α → Prop where
  | acquire {r : FieldRequest α} {field : DistanceField α} {key : FieldKey α} :
      (l.cache.ask r).outcome = .ok (field, key) →
      Step l ⟨(l.cache.ask r).cache, key :: l.current, l.former, l.lost⟩
  | refuse {r : FieldRequest α} {e : Error α} :
      (l.cache.ask r).outcome = .error e → Step l { l with cache := (l.cache.ask r).cache }
  | release {key : FieldKey α} {before after : List (FieldKey α)} :
      l.current = before ++ key :: after →
      Step l ⟨l.cache.release key, before ++ after, l.former,
        fun k => min (l.lost k) (holders (before ++ after) k)⟩
  | stray {key : FieldKey α} {before after : List (FieldKey α)} :
      l.former = before ++ key :: after →
      Step l ⟨l.cache.release key, l.current, before ++ after,
        fun k => min (l.lost k + if key.same k then 1 else 0) (holders l.current k)⟩
  | clear : Step l ⟨l.cache.clear, [], l.current ++ l.former, fun _ => 0⟩

theorem holders_cons (key : FieldKey α) (keys : List (FieldKey α)) (k : FieldKey α) :
    holders (key :: keys) k = holders keys k + if key.same k then 1 else 0 := by
  rw [holders, holders, List.countP_cons]

/-- The keys without one of them. -/
theorem holders_split (before after : List (FieldKey α)) (key k : FieldKey α) :
    holders (before ++ key :: after) k =
      holders (before ++ after) k + if key.same k then 1 else 0 := by
  simp only [holders, List.countP_append, List.countP_cons]
  omega

/-- The owners that a cache counts are those that have the key since the last clearing, without
    those that it lost. -/
structure Sound (l : Ledger α) : Prop where
  wellKept : l.cache.WellKept
  owners_add_lost : ∀ k, l.cache.owners k + l.lost k = holders l.current k

theorem sound_start : (start : Ledger α).Sound := ⟨wellKept_empty, fun _ => rfl⟩

variable [LawfulScalar α] {l l' : Ledger α}

theorem Sound.step (hl : l.Sound) (h : Step l l') : l'.Sound := by
  cases h with
  | @acquire r field key hask =>
    obtain ⟨hkept, howners⟩ := acquire_ok hl.wellKept hask
    refine ⟨hkept, fun k => ?_⟩
    have hcount := hl.owners_add_lost k
    show (l.cache.acquire _ _ _ _).cache.owners k + l.lost k = holders (key :: l.current) k
    rw [howners, holders_cons]
    omega
  | @refuse r e hask =>
    have hsame := acquire_error hask
    refine ⟨hsame.wellKept hl.wellKept, fun k => ?_⟩
    show (l.cache.acquire _ _ _ _).cache.owners k + l.lost k = holders l.current k
    rw [hsame.owners_eq k]
    exact hl.owners_add_lost k
  | @release key before after hcurrent =>
    refine ⟨release_wellKept hl.wellKept key, fun k => ?_⟩
    have hcount := hl.owners_add_lost k
    rw [hcurrent, holders_split] at hcount
    show (l.cache.release key).owners k + min (l.lost k) (holders (before ++ after) k) =
      holders (before ++ after) k
    rw [owners_release hl.wellKept]
    -- Where the owner was lost before, nothing is counted less and one owner less is lost.
    split_ifs at hcount ⊢ <;> omega
  | @stray key before after hformer =>
    refine ⟨release_wellKept hl.wellKept key, fun k => ?_⟩
    have hcount := hl.owners_add_lost k
    show (l.cache.release key).owners k +
      min (l.lost k + if key.same k then 1 else 0) (holders l.current k) = holders l.current k
    rw [owners_release hl.wellKept]
    split_ifs <;> omega
  | clear => exact ⟨clear_wellKept l.cache, fun _ => rfl⟩

theorem sound_of_steps (h : Relation.ReflTransGen Step start l) : l.Sound := by
  induction h with
  | refl => exact sound_start
  | tail _ hstep ih => exact ih.step hstep

/-- How long a field is kept, whatever happened to the cache: exactly as long as more owners have
    its key since the last clearing than were lost because owners from before gave it back. If none
    was lost, this is as long as there is an owner. -/
theorem contains_iff_of_steps (h : Relation.ReflTransGen Step start l) (k : FieldKey α) :
    l.cache.owners k + l.lost k = holders l.current k ∧
      (l.cache.contains k = true ↔ l.lost k < holders l.current k) := by
  have hl := sound_of_steps h
  have hcount := hl.owners_add_lost k
  rw [contains_iff_owners_pos hl.wellKept]
  exact ⟨hcount, by omega⟩

/-! ## A cube -/

section Cube

open DistanceField (cube cubeGrid)
open Relation (ReflTransGen)

/-- The key of the cube at the origin. -/
noncomputable def originKey : FieldKey ℝ :=
  ⟨[cube.digest], [FieldKey.roundedPose .origin], .real 1, some (.real 0), none⟩

theorem key_cubeRequest : cubeRequest.key = .ok originKey := rfl

theorem same_originKey : originKey.same originKey = true := by
  simp [originKey, FieldKey.same, FieldKey.sameAll, FieldKey.sameOption, FieldKey.samePose,
    FieldKey.sameVec, cube, Shape.digest, Digest.same, Given.same, Exact.eq_iff]

/-- Every cache hands out a field for the cube. -/
theorem exists_ask_cube (c : FieldCache ℝ) :
    ∃ field, (c.ask cubeRequest).outcome = .ok (field, originKey) := by
  obtain ⟨f, hf, -⟩ := DistanceField.exists_cube
    (show FieldPlan.alignPoses 1 none = .ok [Pose.origin] from rfl)
  have hbuilt := (FieldRequest.built_eq key_cubeRequest).trans hf
  cases hfind : c.find? originKey with
  | none => exact ⟨f.copy, acquire_missing key_cubeRequest hfind hbuilt⟩
  | some e => exact ⟨e.field.copy, acquire_kept key_cubeRequest hfind⟩

/-- Asks for the cube. -/
noncomputable def askCube (l : Ledger ℝ) : Ledger ℝ :=
  ⟨(l.cache.ask cubeRequest).cache, originKey :: l.current, l.former, l.lost⟩

theorem step_askCube (l : Ledger ℝ) : Step l (askCube l) := by
  obtain ⟨field, hask⟩ := exists_ask_cube l.cache
  exact .acquire hask

/-- Drops all fields. -/
def cleared (l : Ledger ℝ) : Ledger ℝ := ⟨l.cache.clear, [], l.current ++ l.former, fun _ => 0⟩

/-- The cube was asked for, all fields were dropped, and the cube was asked for again. -/
noncomputable def askedAgain : Ledger ℝ := askCube (cleared (askCube start))

theorem steps_askedAgain : ReflTransGen Step start askedAgain :=
  ReflTransGen.refl.tail (step_askCube _) |>.tail .clear |>.tail (step_askCube _)

/-- Then the first owner gives its key back. -/
noncomputable def strayed (l : Ledger ℝ) : Ledger ℝ :=
  ⟨l.cache.release originKey, l.current, l.former.tail,
    fun k => min (l.lost k + if originKey.same k then 1 else 0) (holders l.current k)⟩

theorem step_strayed {l : Ledger ℝ} (h : l.former = originKey :: l.former.tail) :
    Step l (strayed l) := by
  have hsplit : l.former = [] ++ originKey :: l.former.tail := h
  exact .stray hsplit

/-- The cube is asked for by one owner before a clearing and by two after it. If the first owner
    gives its key back now, one of the two others is lost, and the field stays. -/
theorem contains_iff_of_steps_cube :
    ReflTransGen Step start (strayed (askCube askedAgain)) ∧
      (strayed (askCube askedAgain)).cache.owners originKey = 1 ∧
      (strayed (askCube askedAgain)).cache.contains originKey = true := by
  have hsteps : ReflTransGen Step start (strayed (askCube askedAgain)) :=
    steps_askedAgain.tail (step_askCube _) |>.tail (step_strayed rfl)
  have htwo : holders (strayed (askCube askedAgain)).current originKey = 2 := by
    show holders [originKey, originKey] originKey = 2
    simp [holders, same_originKey]
  have hone : (strayed (askCube askedAgain)).lost originKey = 1 := by
    show min (0 + if originKey.same originKey then 1 else 0)
      (holders (strayed (askCube askedAgain)).current originKey) = 1
    rw [htwo, if_pos same_originKey]
    rfl
  obtain ⟨hcount, hkept⟩ := contains_iff_of_steps hsteps originKey
  rw [hone, htwo] at hcount hkept
  exact ⟨hsteps, by omega, hkept.mpr (by decide)⟩

/-- The cube is asked for by one owner before a clearing and by one after it. If the first owner
    gives its key back now, the field is dropped, although the second owner still has its key. -/
theorem exists_dropped : ∃ (l : Ledger ℝ) (k : FieldKey ℝ), ReflTransGen Step start l ∧
    0 < holders l.current k ∧ l.cache.contains k = false := by
  have hsteps : ReflTransGen Step start (strayed askedAgain) :=
    steps_askedAgain.tail (step_strayed rfl)
  have hone : holders (strayed askedAgain).current originKey = 1 := by
    show holders [originKey] originKey = 1
    simp [holders, same_originKey]
  have hlost : (strayed askedAgain).lost originKey = 1 := by
    show min (0 + if originKey.same originKey then 1 else 0)
      (holders (strayed askedAgain).current originKey) = 1
    rw [hone, if_pos same_originKey]
    rfl
  have hsound := sound_of_steps hsteps
  have hcount := hsound.owners_add_lost originKey
  rw [hone, hlost] at hcount
  refine ⟨strayed askedAgain, originKey, hsteps, by omega, ?_⟩
  rw [← Bool.not_eq_true, contains_iff_owners_pos hsound.wellKept]
  omega

end Cube

end Ledger

end Clearance.FieldCache
