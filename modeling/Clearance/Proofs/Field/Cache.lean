import Mathlib.Data.List.Pairwise
import Mathlib.Tactic.SplitIfs
import Clearance.Proofs.Field.Keys

/-!
# The accounts of a cache

A cache is read through two views, the owners under a key and whether the key is there. On a cache
whose keys all differ and whose entries all have an owner the two views say the same, and what
acquiring and releasing do to them is adding one and taking one away under the keys that are the
same as the given one.

* `FieldCache.WellKept`: the invariant, and `FieldCache.contains_iff_owners_pos`.
* `FieldCache.Acquiring`, `FieldCache.acquiring`: what asking for a field can come to.
* `FieldCache.acquire_ok`, `FieldCache.acquire_error`: what acquiring does to the views.
* `FieldCache.release_wellKept`, `FieldCache.owners_release`: what releasing does to them.
* `FieldCache.HandsOutBuilt`: what is handed out is what would be built. It stays so as long as no
  other field is entered under the same key.
-/

namespace Clearance.FieldCache

variable {α : Type} [Scalar α]

/-- No two entries have the same key, and every entry has an owner. -/
structure WellKept (c : FieldCache α) : Prop where
  distinct : c.entries.Pairwise fun d e => d.key.same e.key = false
  owned : ∀ e ∈ c.entries, 0 < e.owners

theorem wellKept_empty : (empty : FieldCache α).WellKept :=
  ⟨List.Pairwise.nil, fun _ h => by cases h⟩

/-- A key is there if the field under it has an owner. -/
theorem contains_iff_owners_pos {c : FieldCache α} (hc : c.WellKept) (key : FieldKey α) :
    c.contains key = true ↔ 0 < c.owners key := by
  unfold contains owners
  cases h : c.find? key with
  | none => simp
  | some e => simpa using hc.owned e (List.mem_of_find?_eq_some h)

/-! ## Counting anew -/

/-- The entries after counting anew: those under other keys, and those under the key that keep an
    owner. -/
theorem mem_setOwners {c : FieldCache α} {key : FieldKey α} {count : Nat → Nat}
    {e' : CacheEntry α} :
    e' ∈ (c.setOwners key count).entries ↔
      ∃ e ∈ c.entries, (e.key.same key = false ∧ e' = e) ∨
        (e.key.same key = true ∧ count e.owners ≠ 0 ∧
        e' = { e with owners := count e.owners }) := by
  rw [setOwners, List.mem_filterMap]
  refine exists_congr fun e => and_congr_right fun _ => ?_
  cases h : e.key.same key with
  | false => simp [eq_comm]
  | true =>
    by_cases hn : count e.owners = 0
    · simp [hn]
    · simp [hn, eq_comm]

variable [LawfulScalar α]

/-- In a well kept cache an entry is found under every key that is the same as its own. -/
theorem find?_eq_some {c : FieldCache α} (hc : c.WellKept) {e : CacheEntry α} (he : e ∈ c.entries)
    {k : FieldKey α} (hk : e.key.same k = true) : c.find? k = some e := by
  have symm : Std.Symm fun d e : CacheEntry α => d.key.same e.key = false :=
    ⟨fun d e h => by
      rw [← Bool.not_eq_true] at h ⊢
      exact fun h' => h (FieldKey.same_symm h')⟩
  cases h : c.find? k with
  | none =>
    have hne := List.find?_eq_none.mp h e he
    exact absurd hk hne
  | some d =>
    have hd : d.key.same k = true := by simpa using List.find?_some h
    by_contra hne
    have hde := hc.distinct.forall (List.mem_of_find?_eq_some h) he fun h' => hne (congrArg some h')
    rw [FieldKey.same_trans hd (FieldKey.same_symm hk)] at hde
    cases hde

omit [LawfulScalar α] in
theorem find?_eq_none {c : FieldCache α} {k : FieldKey α} :
    c.find? k = none ↔ ∀ e ∈ c.entries, e.key.same k = false := by
  rw [find?, List.find?_eq_none]
  exact forall₂_congr fun e _ => by rw [Bool.not_eq_true]

omit [LawfulScalar α] in
theorem owners_eq_zero {c : FieldCache α} {k : FieldKey α}
    (h : ∀ e ∈ c.entries, e.key.same k = false) :
    c.owners k = 0 := by
  rw [owners, find?_eq_none.mpr h]

theorem owners_eq {c : FieldCache α} (hc : c.WellKept) {e : CacheEntry α} (he : e ∈ c.entries)
    {k : FieldKey α} (hk : e.key.same k = true) : c.owners k = e.owners := by
  rw [owners, find?_eq_some hc he hk]

omit [LawfulScalar α] in
theorem setOwners_wellKept {c : FieldCache α} (hc : c.WellKept) (key : FieldKey α)
    (count : Nat → Nat) :
    (c.setOwners key count).WellKept where
  distinct := by
    refine hc.distinct.filterMap _ ?_
    have same_key : ∀ d d' : CacheEntry α, (if d.key.same key = true then
        if count d.owners = 0 then none else some { d with owners := count d.owners }
        else some d) = some d' → d'.key = d.key := by
      intro d d' h
      split_ifs at h <;> cases h <;> rfl
    intro d e hde d' hd' e' he'
    rw [same_key d d' hd', same_key e e' he']
    exact hde
  owned := by
    intro e' he'
    obtain ⟨e, he, ⟨-, rfl⟩ | ⟨-, hn, rfl⟩⟩ := mem_setOwners.mp he'
    · exact hc.owned e' he
    · exact Nat.pos_of_ne_zero hn

/-- Counting anew changes the owners under the keys that are the same as the given one. -/
theorem owners_setOwners {c : FieldCache α} (hc : c.WellKept) (key : FieldKey α) (count : Nat → Nat)
    (hz : c.contains key = true ∨ count 0 = 0) (k : FieldKey α) :
    (c.setOwners key count).owners k = if key.same k then count (c.owners k) else c.owners k := by
  have hc' := setOwners_wellKept hc key count
  by_cases h : ∃ e ∈ c.entries, e.key.same k = true
  · obtain ⟨e, he, hek⟩ := h
    rw [owners_eq hc he hek]
    cases hk : key.same k with
    | false =>
      have other : e.key.same key = false := by
        rw [← Bool.not_eq_true] at hk ⊢
        exact fun h => hk (FieldKey.same_trans (FieldKey.same_symm h) hek)
      exact owners_eq hc' (mem_setOwners.mpr ⟨e, he, Or.inl ⟨other, rfl⟩⟩) hek
    | true =>
      have own : e.key.same key = true := FieldKey.same_trans hek (FieldKey.same_symm hk)
      by_cases hn : count e.owners = 0
      · rw [if_pos rfl, hn]
        refine owners_eq_zero fun e' he' => ?_
        rw [← Bool.not_eq_true]
        intro hek'
        -- Only the dropped entry was there under this key.
        obtain ⟨d, hd, ⟨hdk, rfl⟩ | ⟨-, hdn, rfl⟩⟩ := mem_setOwners.mp he'
        · rw [FieldKey.same_trans hek' (FieldKey.same_symm hk)] at hdk
          cases hdk
        · have hde := (find?_eq_some hc hd hek').symm.trans (find?_eq_some hc he hek)
          cases hde
          exact hdn hn
      · exact owners_eq hc' (mem_setOwners.mpr ⟨e, he, Or.inr ⟨own, hn, rfl⟩⟩) hek
  · have absent : ∀ e ∈ c.entries, e.key.same k = false := by
      intro e he
      rw [← Bool.not_eq_true]
      exact fun hek => h ⟨e, he, hek⟩
    have absent' : ∀ e' ∈ (c.setOwners key count).entries, e'.key.same k = false := by
      intro e' he'
      obtain ⟨e, he, ⟨-, rfl⟩ | ⟨-, -, rfl⟩⟩ := mem_setOwners.mp he'
      · exact absent e' he
      · exact absent e he
    rw [owners_eq_zero absent, owners_eq_zero absent']
    cases hk : key.same k with
    | false => rfl
    | true =>
      refine (hz.resolve_left fun hcontains => ?_).symm
      obtain ⟨e, hfind⟩ := Option.isSome_iff_exists.mp hcontains
      have hek : e.key.same key = true := by simpa using List.find?_some hfind
      exact h ⟨e, List.mem_of_find?_eq_some hfind, FieldKey.same_trans hek hk⟩

/-! ## Releasing and acquiring -/

omit [LawfulScalar α] in
theorem release_wellKept {c : FieldCache α} (hc : c.WellKept) (key : FieldKey α) :
    (c.release key).WellKept :=
  setOwners_wellKept hc key _

theorem owners_release {c : FieldCache α} (hc : c.WellKept) (key k : FieldKey α) :
    (c.release key).owners k = c.owners k - if key.same k then 1 else 0 := by
  rw [release, owners_setOwners hc key _ (Or.inr rfl)]
  split_ifs <;> rfl

/-- The cache with one more entry at its end, of a field with one owner. -/
def enter (c : FieldCache α) (key : FieldKey α) (field : DistanceField α) : FieldCache α :=
  { c with entries := c.entries ++ [⟨key, field, 1⟩] }

omit [LawfulScalar α] in
theorem enter_wellKept {c : FieldCache α} (hc : c.WellKept) {key : FieldKey α}
    (h : c.find? key = none) (field : DistanceField α) : (c.enter key field).WellKept where
  distinct := by
    refine List.pairwise_append.mpr ⟨hc.distinct, List.pairwise_singleton _ _, ?_⟩
    intro d hd e he
    rw [List.mem_singleton.mp he]
    exact find?_eq_none.mp h d hd
  owned := by
    intro e he
    rcases List.mem_append.mp he with he | he
    · exact hc.owned e he
    · rw [List.mem_singleton.mp he]
      exact Nat.one_pos

omit [LawfulScalar α] in
/-- What is found after entering was there, or is the new entry. -/
theorem find?_enter {c : FieldCache α} {key k : FieldKey α} {field : DistanceField α}
    {e : CacheEntry α} (h : (c.enter key field).find? k = some e) :
    c.find? k = some e ∨ key.same k = true ∧ e = ⟨key, field, 1⟩ := by
  rw [find?, enter, List.find?_append, Option.or_eq_some_iff] at h
  rcases h with h | ⟨-, h⟩
  · exact .inl h
  · obtain rfl := List.mem_singleton.mp (List.mem_of_find?_eq_some h)
    exact .inr ⟨by simpa using List.find?_some h, rfl⟩

theorem owners_enter {c : FieldCache α} {key : FieldKey α} (h : c.find? key = none)
    (field : DistanceField α) (k : FieldKey α) :
    (c.enter key field).owners k = c.owners k + if key.same k then 1 else 0 := by
  cases hk : key.same k with
  | true =>
    have absent : c.find? k = none := by
      refine find?_eq_none.mpr fun e he => ?_
      rw [← Bool.not_eq_true]
      intro hek
      have hkey := find?_eq_none.mp h e he
      rw [FieldKey.same_trans hek (FieldKey.same_symm hk)] at hkey
      cases hkey
    have hfind : (c.enter key field).find? k = some ⟨key, field, 1⟩ := by
      rw [find?, enter, List.find?_append, show c.entries.find? _ = none from absent,
        Option.none_or, List.find?_cons_of_pos (by simpa using hk)]
    rw [owners, owners, absent, hfind]
    rfl
  | false =>
    have hfind : (c.enter key field).find? k = c.find? k := by
      rw [find?, find?, enter, List.find?_append, List.find?_cons_of_neg (by simp [hk]),
        List.find?_nil, Option.or_none]
    rw [owners, owners, hfind]
    rfl

/-- Two caches with the same entries, which may have been asked for fields differently often. -/
def SameEntries (c d : FieldCache α) : Prop := c.entries = d.entries

omit [LawfulScalar α] in
theorem SameEntries.wellKept {c d : FieldCache α} (h : SameEntries c d) (hd : d.WellKept) :
    c.WellKept :=
  ⟨h ▸ hd.distinct, h ▸ hd.owned⟩

omit [LawfulScalar α] in
theorem SameEntries.find?_eq {c d : FieldCache α} (h : SameEntries c d) (k : FieldKey α) :
    c.find? k = d.find? k := by
  rw [find?, find?, h]

omit [LawfulScalar α] in
theorem SameEntries.owners_eq {c d : FieldCache α} (h : SameEntries c d) (k : FieldKey α) :
    c.owners k = d.owners k := by
  rw [owners, owners, h.find?_eq]

section Acquiring

variable {c : FieldCache α} {settings settings' : Settings α} {shapes shapes' : List (ShapeSource α)}
  {poses poses' : Option (List (PoseSource α))} {params params' : GridParams α}
  {key : FieldKey α} {field : DistanceField α}

/-- The field that would be built for what has the given key. -/
def built (settings : Settings α) (shapes : List (ShapeSource α))
    (poses : Option (List (PoseSource α))) (params : GridParams α) (key : FieldKey α) :
    Except (Error α) (DistanceField α) :=
  (DistanceField.ofShapes settings shapes poses { params with resolution := some key.resolution }).1

/-- What asking for a field can come to: it cannot be had, or it is kept, or it is built and
    entered. -/
inductive Acquiring (c : FieldCache α) (settings : Settings α) (shapes : List (ShapeSource α))
    (poses : Option (List (PoseSource α))) (params : GridParams α) : Acquired α → Prop where
  | refused {e : Error α} {d : FieldCache α} {events : List (Event α)} :
      SameEntries d c → Acquiring c settings shapes poses params ⟨.error e, d, events⟩
  | kept {key : FieldKey α} {e : CacheEntry α} {d : FieldCache α} {events : List (Event α)} :
      FieldKey.make settings shapes poses params = .ok key → c.find? key = some e →
      SameEntries d (c.setOwners key (· + 1)) →
      Acquiring c settings shapes poses params ⟨.ok (e.field.copy, key), d, events⟩
  | entered {key : FieldKey α} {field : DistanceField α} {d : FieldCache α}
      {events : List (Event α)} :
      FieldKey.make settings shapes poses params = .ok key → c.find? key = none →
      built settings shapes poses params key = .ok field → SameEntries d (c.enter key field) →
      Acquiring c settings shapes poses params ⟨.ok (field.copy, key), d, events⟩

omit [LawfulScalar α] in
theorem acquiring (c : FieldCache α) (settings : Settings α) (shapes : List (ShapeSource α))
    (poses : Option (List (PoseSource α))) (params : GridParams α) :
    Acquiring c settings shapes poses params (c.acquire settings shapes poses params) := by
  unfold acquire
  cases hkey : FieldKey.make settings shapes poses params with
  | error e => exact .refused rfl
  | ok key =>
    cases hfind : c.find? key with
    | some e =>
      simp only [hfind]
      exact .kept hkey hfind rfl
    | none =>
      simp only [hfind]
      cases hbuilt : (DistanceField.ofShapes settings shapes poses
          { params with resolution := some key.resolution }).1 with
      | error e => exact .refused rfl
      | ok field => exact .entered hkey hfind hbuilt rfl

/-- A field that is handed out has one more owner. -/
theorem acquire_ok (hc : c.WellKept)
    (h : (c.acquire settings shapes poses params).outcome = .ok (field, key)) :
    (c.acquire settings shapes poses params).cache.WellKept ∧
      ∀ k, (c.acquire settings shapes poses params).cache.owners k =
        c.owners k + if key.same k then 1 else 0 := by
  have hway := acquiring c settings shapes poses params
  generalize c.acquire settings shapes poses params = acquired at h hway ⊢
  cases hway with
  | refused _ => cases h
  | @kept key' e d events _ hfind same =>
    obtain ⟨rfl, rfl⟩ := Prod.mk.inj (Except.ok.inj h)
    refine ⟨same.wellKept (setOwners_wellKept hc _ _), fun k => ?_⟩
    have hcontains : c.contains key' = true := by rw [contains, hfind, Option.isSome_some]
    rw [same.owners_eq, owners_setOwners hc _ _ (Or.inl hcontains)]
    split_ifs <;> rfl
  | entered _ hfind _ same =>
    obtain ⟨rfl, rfl⟩ := Prod.mk.inj (Except.ok.inj h)
    refine ⟨same.wellKept (enter_wellKept hc hfind _), fun k => ?_⟩
    rw [same.owners_eq, owners_enter hfind]

omit [LawfulScalar α] in
/-- Asking for a field that cannot be had does not change the entries. -/
theorem acquire_error {e : Error α}
    (h : (c.acquire settings shapes poses params).outcome = .error e) :
    SameEntries (c.acquire settings shapes poses params).cache c := by
  have hway := acquiring c settings shapes poses params
  generalize c.acquire settings shapes poses params = acquired at h hway ⊢
  cases hway with
  | refused same => exact same
  | kept => cases h
  | entered => cases h

omit [LawfulScalar α] in
/-- A field that is not kept and can be built is handed out. -/
theorem acquire_missing (hkey : FieldKey.make settings shapes poses params = .ok key)
    (hfind : c.find? key = none) (hbuilt : built settings shapes poses params key = .ok field) :
    (c.acquire settings shapes poses params).outcome = .ok (field.copy, key) := by
  unfold built at hbuilt
  unfold acquire
  rw [hkey]
  simp only [hfind, hbuilt]

omit [LawfulScalar α] in
/-- It is entered then. -/
theorem acquire_enters (hkey : FieldKey.make settings shapes poses params = .ok key)
    (hfind : c.find? key = none) (hbuilt : built settings shapes poses params key = .ok field) :
    SameEntries (c.acquire settings shapes poses params).cache (c.enter key field) := by
  unfold built at hbuilt
  unfold acquire
  rw [hkey]
  simp only [hfind, hbuilt]
  rfl

omit [LawfulScalar α] in
/-- A field that is kept is handed out. -/
theorem acquire_kept {e : CacheEntry α} (hkey : FieldKey.make settings shapes poses params = .ok key)
    (hfind : c.find? key = some e) :
    (c.acquire settings shapes poses params).outcome = .ok (e.field.copy, key) := by
  unfold acquire
  rw [hkey]
  simp only [hfind]

/-! ## What is handed out -/

/-- For what a field is asked of, the cache hands out no other field than the one that would be
    built. -/
def HandsOutBuilt (c : FieldCache α) (settings : Settings α) (shapes : List (ShapeSource α))
    (poses : Option (List (PoseSource α))) (params : GridParams α) : Prop :=
  ∀ key e, FieldKey.make settings shapes poses params = .ok key → c.find? key = some e →
    built settings shapes poses params key = .ok e.field

omit [LawfulScalar α] in
theorem handsOutBuilt_empty :
    (empty : FieldCache α).HandsOutBuilt settings shapes poses params := by
  intro key e _ h
  cases h

omit [LawfulScalar α] in
theorem SameEntries.handsOutBuilt {d : FieldCache α} (h : SameEntries c d)
    (hd : d.HandsOutBuilt settings shapes poses params) :
    c.HandsOutBuilt settings shapes poses params := by
  intro key e hkey hfind
  rw [h.find?_eq] at hfind
  exact hd key e hkey hfind

theorem HandsOutBuilt.setOwners (hc : c.WellKept)
    (h : c.HandsOutBuilt settings shapes poses params) (key : FieldKey α) (count : Nat → Nat) :
    (c.setOwners key count).HandsOutBuilt settings shapes poses params := by
  intro k e' hk hfind
  have hsame : e'.key.same k = true := by simpa using List.find?_some hfind
  obtain ⟨e, he, ⟨-, rfl⟩ | ⟨-, -, rfl⟩⟩ := mem_setOwners.mp (List.mem_of_find?_eq_some hfind)
  · exact h k _ hk (find?_eq_some hc he hsame)
  · exact h k e hk (find?_eq_some hc he hsame)

theorem HandsOutBuilt.release (hc : c.WellKept) (h : c.HandsOutBuilt settings shapes poses params)
    (key : FieldKey α) : (c.release key).HandsOutBuilt settings shapes poses params :=
  h.setOwners hc key _

/-- Asking for another field does not change what is handed out, unless the other has the same key
    and is not the same field: keys tell numbers apart up to rounding only. -/
theorem HandsOutBuilt.acquire (hc : c.WellKept) (h : c.HandsOutBuilt settings shapes poses params)
    (hother : ∀ key key' field, FieldKey.make settings shapes poses params = .ok key →
      FieldKey.make settings' shapes' poses' params' = .ok key' → key'.same key = true →
      built settings' shapes' poses' params' key' = .ok field →
      built settings shapes poses params key = .ok field) :
    (c.acquire settings' shapes' poses' params').cache.HandsOutBuilt settings shapes
      poses params := by
  have hway := acquiring c settings' shapes' poses' params'
  generalize c.acquire settings' shapes' poses' params' = acquired at hway ⊢
  cases hway with
  | refused same => exact same.handsOutBuilt h
  | kept _ _ same => exact same.handsOutBuilt (h.setOwners hc _ _)
  | @entered key' field d events hkey' _ hbuilt same =>
    refine same.handsOutBuilt fun key e hkey hfound => ?_
    rcases find?_enter hfound with hold | ⟨hsame, rfl⟩
    · exact h key e hkey hold
    · exact hother key key' field hkey hkey' hsame hbuilt

end Acquiring

end Clearance.FieldCache
