import Mathlib.Data.List.Forall2
import Clearance.Error

/-!
# Lists of operations that can fail

An operation is applied to the members of a list one after the other, and the first failure ends it.

* `bind_eq_map`, `map_bind_eq_map`: computations that go on alike, up to a function of the result.
* `bind_eq_error`: when one of two fails.
* `mapM_eq_ok`: when all of them succeed.
* `exists_mapM`, `exists_of_mapM`, `exists_of_mem_mapM`: members and their images.
* `exists_of_mapM_error`: the member at which it fails.
* `mapM_eq_self`: an operation that changes nothing where it succeeds.
* `map_eq_of_mapM`: what results have in common with members.
* `mapM_eq_map`: an operation whose results are known where it succeeds.
* `mapM_map_results`, `foldlM_eq_map`: operations that come to another's results, changed by a
  function.
* `forM_eq_ok`: an operation without results.
* `filterM_eq_ok`: a test that succeeds on all members.
-/

namespace Clearance

/-- Two computations that go on alike, up to a function of the result. -/
theorem bind_eq_map {ε α β γ : Type} {x : Except ε α} {f : α → Except ε β} {f' : α → Except ε γ} {k : β → γ}
    (h : ∀ a, f' a = (f a).map k) : (x >>= f') = (x >>= f).map k := by
  cases x with
  | error e => rfl
  | ok a => exact h a

/-- The same where the first results differ by a function too. -/
theorem map_bind_eq_map {ε α α' β γ : Type} {x : Except ε α} {j : α → α'} {f : α → Except ε β}
    {f' : α' → Except ε γ} {k : β → γ} (h : ∀ a, f' (j a) = (f a).map k) :
    (x.map j >>= f') = (x >>= f).map k := by
  cases x with
  | error e => rfl
  | ok a => exact h a

/-- Two steps fail together if one of them does. -/
theorem bind_eq_error {ε α β : Type} {x : Except ε α} {f : α → Except ε β} {e : ε} :
    (x >>= f) = .error e ↔ x = .error e ∨ ∃ a, x = .ok a ∧ f a = .error e := by
  cases x with
  | error e' =>
    show Except.error e' = _ ↔ _
    simp
  | ok a =>
    show f a = _ ↔ _
    simp

/-- A list is mapped if each of its members is. -/
theorem mapM_eq_ok {ε α β : Type} {f : α → Except ε β} {xs : List α} {ys : List β} :
    xs.mapM f = .ok ys ↔ List.Forall₂ (fun x y => f x = .ok y) xs ys := by
  induction xs generalizing ys with
  | nil =>
    rw [List.mapM_nil, List.forall₂_nil_left_iff]
    exact ⟨fun h => (Except.ok.inj h).symm, fun h => congrArg Except.ok h.symm⟩
  | cons x xs ih =>
    rw [List.mapM_cons, bind_eq_ok, List.forall₂_cons_left_iff]
    constructor
    · rintro ⟨y, hy, h⟩
      obtain ⟨zs, hzs, h⟩ := bind_eq_ok.mp h
      exact ⟨y, zs, hy, ih.mp hzs, (Except.ok.inj h).symm⟩
    · rintro ⟨y, zs, hy, hzs, rfl⟩
      exact ⟨y, hy, bind_eq_ok.mpr ⟨zs, ih.mpr hzs, rfl⟩⟩

/-- A list can be mapped if each of its members can. -/
theorem exists_mapM {ε α β : Type} {f : α → Except ε β} {xs : List α}
    (h : ∀ x ∈ xs, ∃ y, f x = .ok y) : ∃ ys, xs.mapM f = .ok ys := by
  induction xs with
  | nil => exact ⟨[], rfl⟩
  | cons x xs ih =>
    obtain ⟨y, hy⟩ := h x List.mem_cons_self
    obtain ⟨ys, hys⟩ := ih fun z hz => h z (List.mem_cons_of_mem _ hz)
    exact ⟨y :: ys, mapM_eq_ok.mpr (.cons hy (mapM_eq_ok.mp hys))⟩

/-- The image of a member is among the images. -/
theorem exists_of_mapM {ε α β : Type} {f : α → Except ε β} {xs : List α} {ys : List β}
    (h : xs.mapM f = .ok ys) {x : α} (hx : x ∈ xs) : ∃ y ∈ ys, f x = .ok y := by
  rw [mapM_eq_ok] at h
  induction h with
  | nil => exact absurd hx List.not_mem_nil
  | cons hxy _ ih =>
    rcases List.mem_cons.mp hx with rfl | hx
    · exact ⟨_, List.mem_cons_self, hxy⟩
    · obtain ⟨y, hy, e⟩ := ih hx
      exact ⟨y, List.mem_cons_of_mem _ hy, e⟩

/-- Each of the images is that of a member. -/
theorem exists_of_mem_mapM {ε α β : Type} {f : α → Except ε β} {xs : List α} {ys : List β}
    (h : xs.mapM f = .ok ys) {y : β} (hy : y ∈ ys) : ∃ x ∈ xs, f x = .ok y := by
  rw [mapM_eq_ok] at h
  induction h with
  | nil => exact absurd hy List.not_mem_nil
  | cons hxy _ ih =>
    rcases List.mem_cons.mp hy with rfl | hy
    · exact ⟨_, List.mem_cons_self, hxy⟩
    · obtain ⟨x, hx, e⟩ := ih hy
      exact ⟨x, List.mem_cons_of_mem _ hx, e⟩

/-- If a list is not mapped, it fails with the error of one of its members. -/
theorem exists_of_mapM_error {ε α β : Type} {f : α → Except ε β} {xs : List α} {e : ε}
    (h : xs.mapM f = .error e) : ∃ x ∈ xs, f x = .error e := by
  induction xs with
  | nil => cases h
  | cons x xs ih =>
    rw [List.mapM_cons] at h
    rcases bind_eq_error.mp h with hx | ⟨y, -, h⟩
    · exact ⟨x, List.mem_cons_self, hx⟩
    · rcases bind_eq_error.mp h with hxs | ⟨ys, -, h⟩
      · obtain ⟨z, hz, hfz⟩ := ih hxs
        exact ⟨z, List.mem_cons_of_mem _ hz, hfz⟩
      · cases h

/-- An operation that gives what it is given where it succeeds does so for lists. -/
theorem mapM_eq_self {ε α : Type} {f : α → Except ε α} (hf : ∀ x y, f x = .ok y → y = x)
    {xs ys : List α} (h : xs.mapM f = .ok ys) : ys = xs := by
  rw [mapM_eq_ok] at h
  induction h with
  | nil => rfl
  | cons hxy _ ih => rw [hf _ _ hxy, ih]

/-- What a function tells of the results it tells of the members, if it does so one by one. -/
theorem map_eq_of_mapM {ε α β γ : Type} {f : α → Except ε β} {g : β → γ} {k : α → γ}
    (hf : ∀ x y, f x = .ok y → g y = k x) {xs : List α} {ys : List β} (h : xs.mapM f = .ok ys) :
    ys.map g = xs.map k := by
  rw [mapM_eq_ok] at h
  induction h with
  | nil => rfl
  | cons hxy _ ih => rw [List.map_cons, List.map_cons, hf _ _ hxy, ih]

/-- An operation that gives `g x` where it succeeds gives the images under `g`. -/
theorem mapM_eq_map {ε α β : Type} {f : α → Except ε β} {g : α → β} (hf : ∀ x y, f x = .ok y → y = g x)
    {xs : List α} {ys : List β} : xs.mapM f = .ok ys ↔ (∀ x ∈ xs, f x = .ok (g x)) ∧ ys = xs.map g := by
  rw [mapM_eq_ok]
  constructor
  · intro h
    induction h with
    | nil => exact ⟨nofun, rfl⟩
    | cons hxy _ ih =>
      obtain rfl := hf _ _ hxy
      exact ⟨List.forall_mem_cons.mpr ⟨hxy, ih.1⟩, by rw [ih.2, List.map_cons]⟩
  · rintro ⟨h, rfl⟩
    rw [List.forall₂_map_right_iff, List.forall₂_same]
    exact h

/-- The results of an operation that comes to those of another, changed by `k`. -/
theorem mapM_map_results {ε α β γ : Type} {f : α → Except ε β} {f' : α → Except ε γ} {k : β → γ}
    (h : ∀ x, f' x = (f x).map k) (xs : List α) : xs.mapM f' = (xs.mapM f).map (List.map k) := by
  induction xs with
  | nil => rfl
  | cons x xs ih =>
    rw [List.mapM_cons, List.mapM_cons, h, ih]
    exact map_bind_eq_map fun y => map_bind_eq_map fun ys => rfl

/-- A fold over values that a function changes at every round alike. -/
theorem foldlM_eq_map {ε α β β' : Type} {f : β → α → Except ε β} {f' : β' → α → Except ε β'} {k : β → β'}
    (h : ∀ b x, f' (k b) x = (f b x).map k) (xs : List α) (b : β) :
    xs.foldlM f' (k b) = (xs.foldlM f b).map k := by
  induction xs generalizing b with
  | nil => rfl
  | cons x xs ih =>
    rw [List.foldlM_cons, List.foldlM_cons, h]
    exact map_bind_eq_map ih

theorem forM_eq_ok {ε α : Type} {f : α → Except ε Unit} {xs : List α} :
    xs.forM f = .ok () ↔ ∀ x ∈ xs, f x = .ok () := by
  induction xs with
  | nil => exact ⟨fun _ => nofun, fun _ => rfl⟩
  | cons x xs ih =>
    rw [List.forall_mem_cons, ← ih]
    constructor
    · intro h
      obtain ⟨_, hx, hxs⟩ := bind_eq_ok.mp h
      exact ⟨hx, hxs⟩
    · rintro ⟨hx, hxs⟩
      exact bind_eq_ok.mpr ⟨_, hx, hxs⟩

/-- A test that succeeds on all members filters the list. -/
theorem filterM_eq_ok {ε α : Type} {f : α → Except ε Bool} {p : α → Bool} {xs : List α}
    (h : ∀ x ∈ xs, f x = .ok (p x)) : xs.filterM f = .ok (xs.filter p) := by
  have aux : ∀ acc, xs.filterAuxM f acc = .ok ((xs.filter p).reverse ++ acc) := by
    induction xs with
    | nil => exact fun acc => rfl
    | cons x xs ih =>
      intro acc
      have ih := ih fun y hy => h y (List.mem_cons_of_mem _ hy)
      refine bind_eq_ok.mpr ⟨p x, h x List.mem_cons_self, (ih _).trans ?_⟩
      cases hx : p x <;> simp [hx]
  refine bind_eq_ok.mpr ⟨_, aux [], ?_⟩
  rw [List.append_nil, List.reverse_reverse]
  rfl

end Clearance
