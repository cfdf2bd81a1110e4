/-!
# Ordered tables

A table of values under keys, each key at most once, in the order in which the keys were first
entered. A key that is entered again keeps its place.

* `Table.keys`, `Table.find?`: the two views of a table.
* `Table.find?_set`, `Table.find?_erase`: what writing and erasing do to one view.
* `Table.keys_set`, `Table.keys_erase`: what they do to the other.
* `Table.exists_values_split`: what they do to the values.
* `Table.find?_mapValues`, `Table.mapValues_set`: a function applied to the values.
* `Table.find?_setAll`, `Table.mem_keys_setAll`, `Table.setAll_self`: what several writes do.
-/

namespace Clearance

/-- Values under different keys, in order. -/
structure Table (κ ν : Type) where
  entries : List (κ × ν)
  nodup : (entries.map Prod.fst).Nodup

namespace Table

variable {κ ν μ : Type}

/-- The table without entries. -/
def empty : Table κ ν := ⟨[], List.nodup_nil⟩

instance : Inhabited (Table κ ν) := ⟨empty⟩

/-- The keys in order. -/
def keys (t : Table κ ν) : List κ := t.entries.map Prod.fst

/-- The values in the order of their keys. -/
def values (t : Table κ ν) : List ν := t.entries.map Prod.snd

/-- The number of entries. -/
def size (t : Table κ ν) : Nat := t.entries.length

/-- The table with a function applied to every value. -/
def mapValues (f : κ → ν → μ) (t : Table κ ν) : Table κ μ where
  entries := t.entries.map fun e => (e.1, f e.1 e.2)
  nodup := by simpa [List.map_map, Function.comp_def] using t.nodup

@[simp] theorem keys_empty : (empty : Table κ ν).keys = [] := rfl

@[simp] theorem values_empty : (empty : Table κ ν).values = [] := rfl

@[simp] theorem keys_mapValues (f : κ → ν → μ) (t : Table κ ν) : (t.mapValues f).keys = t.keys := by
  simp [keys, mapValues, Function.comp_def]

theorem nodup_keys (t : Table κ ν) : t.keys.Nodup := t.nodup

variable [DecidableEq κ]

/-! ## Looking up -/

/-- The value of the first entry under a key. -/
def lookup (k : κ) : List (κ × ν) → Option ν
  | [] => none
  | (k', v) :: rest => if k' = k then some v else lookup k rest

/-- The value under a key. -/
def find? (t : Table κ ν) (k : κ) : Option ν := lookup k t.entries

/-- Whether there is a value under a key. -/
def contains (t : Table κ ν) (k : κ) : Bool := (t.find? k).isSome

/-! ## Writing -/

/-- Writes under a key where it stands, or at the end. -/
def write (k : κ) (v : ν) : List (κ × ν) → List (κ × ν)
  | [] => [(k, v)]
  | (k', v') :: rest => if k' = k then (k, v) :: rest else (k', v') :: write k v rest

theorem map_fst_write (k : κ) (v : ν) (es : List (κ × ν)) :
    (write k v es).map Prod.fst =
      if k ∈ es.map Prod.fst then es.map Prod.fst else es.map Prod.fst ++ [k] := by
  induction es with
  | nil => simp [write]
  | cons e rest ih =>
    obtain ⟨k', v'⟩ := e
    by_cases h : k' = k
    · simp [write, h]
    · have h' : k ≠ k' := fun e => h e.symm
      simp only [write, if_neg h, List.map_cons, ih, List.mem_cons, h', false_or]
      split <;> simp

/-- The table with a value under a key; a key that is there keeps its place, another goes to the
    end. -/
def set (t : Table κ ν) (k : κ) (v : ν) : Table κ ν where
  entries := write k v t.entries
  nodup := by
    rw [map_fst_write]
    split
    · exact t.nodup
    · rename_i h
      refine List.nodup_append.mpr ⟨t.nodup, by simp, ?_⟩
      intro a ha b hb
      simp only [List.mem_singleton] at hb
      subst hb
      exact fun e => h (e ▸ ha)

/-- The table without a key. -/
def erase (t : Table κ ν) (k : κ) : Table κ ν where
  entries := t.entries.filter fun e => e.1 ≠ k
  nodup := t.nodup.sublist (List.Sublist.map _ List.filter_sublist)

/-- The table with a value under a key that is moved to the end if it is there. -/
def push (t : Table κ ν) (k : κ) (v : ν) : Table κ ν := (t.erase k).set k v

/-- The table of a list of entries; of several values under one key the last counts. -/
def ofList (es : List (κ × ν)) : Table κ ν := es.foldl (fun t e => t.set e.1 e.2) empty

/-! ## Laws -/

theorem lookup_write (k j : κ) (v : ν) (es : List (κ × ν)) :
    lookup j (write k v es) = if k = j then some v else lookup j es := by
  induction es with
  | nil => simp [write, lookup]
  | cons e rest ih =>
    obtain ⟨k', v'⟩ := e
    by_cases h : k' = k
    · subst h
      by_cases h' : k' = j <;> simp [write, lookup, h']
    · by_cases h' : k' = j
      · subst h'
        have h'' : k ≠ k' := fun e => h e.symm
        simp [write, lookup, h, h'']
      · simp [write, lookup, h, h', ih]

/-- A written value is found under its key, and all else as before. -/
theorem find?_set (t : Table κ ν) (k j : κ) (v : ν) :
    (t.set k v).find? j = if k = j then some v else t.find? j := lookup_write k j v t.entries

theorem lookup_map_snd (f : κ → ν → μ) (k : κ) (es : List (κ × ν)) :
    lookup k (es.map fun e => (e.1, f e.1 e.2)) = (lookup k es).map (f k) := by
  induction es with
  | nil => rfl
  | cons e rest ih =>
    obtain ⟨k', v'⟩ := e
    by_cases h : k' = k
    · subst h
      simp [lookup]
    · simp [lookup, h, ih]

/-- What is found after a function was applied to every value. -/
theorem find?_mapValues (f : κ → ν → μ) (t : Table κ ν) (k : κ) :
    (t.mapValues f).find? k = (t.find? k).map (f k) := lookup_map_snd f k t.entries

theorem map_write (f : κ → ν → μ) (k : κ) (v : ν) (es : List (κ × ν)) :
    (write k v es).map (fun e => (e.1, f e.1 e.2)) = write k (f k v) (es.map fun e => (e.1, f e.1 e.2)) := by
  induction es with
  | nil => rfl
  | cons e rest ih =>
    obtain ⟨k', v'⟩ := e
    by_cases h : k' = k <;> simp [write, h, ih]

/-- A function can be applied to a value before it is written. -/
theorem mapValues_set (f : κ → ν → μ) (t : Table κ ν) (k : κ) (v : ν) :
    (t.set k v).mapValues f = (t.mapValues f).set k (f k v) := by
  simp only [mapValues, set, map_write]

/-- A function can be applied to the values before they are entered. -/
theorem mapValues_ofList (f : κ → ν → μ) (es : List (κ × ν)) :
    (ofList es).mapValues f = ofList (es.map fun e => (e.1, f e.1 e.2)) := by
  have fold : ∀ (es : List (κ × ν)) (t : Table κ ν),
      (es.foldl (fun t e => t.set e.1 e.2) t).mapValues f =
        (es.map fun e => (e.1, f e.1 e.2)).foldl (fun t e => t.set e.1 e.2) (t.mapValues f) := by
    intro es
    induction es with
    | nil => exact fun _ => rfl
    | cons e rest ih => exact fun t => (ih _).trans (by rw [mapValues_set]; rfl)
  exact fold es empty

theorem lookup_filter_ne (k j : κ) (es : List (κ × ν)) :
    lookup j (es.filter fun e => e.1 ≠ k) = if k = j then none else lookup j es := by
  induction es with
  | nil => simp [lookup]
  | cons e rest ih =>
    obtain ⟨k', v'⟩ := e
    by_cases h : k' = k
    · subst h
      by_cases h' : k' = j <;> simp_all [lookup]
    · by_cases h' : k' = j
      · subst h'
        have h'' : k ≠ k' := fun e => h e.symm
        simp [lookup, h, h'']
      · simp_all [lookup]

/-- Nothing is found under an erased key, and all else as before. -/
theorem find?_erase (t : Table κ ν) (k j : κ) :
    (t.erase k).find? j = if k = j then none else t.find? j := lookup_filter_ne k j t.entries

@[simp] theorem find?_empty (k : κ) : (empty : Table κ ν).find? k = none := rfl

/-- A new key goes to the end of the keys. -/
theorem keys_set (t : Table κ ν) (k : κ) (v : ν) :
    (t.set k v).keys = if k ∈ t.keys then t.keys else t.keys ++ [k] := map_fst_write k v t.entries

/-- An erased key leaves the others in order. -/
theorem keys_erase (t : Table κ ν) (k : κ) : (t.erase k).keys = t.keys.filter (· ≠ k) := by
  simp [keys, erase, List.filter_map, Function.comp_def]

theorem lookup_isSome_iff (k : κ) (es : List (κ × ν)) : (lookup k es).isSome ↔ k ∈ es.map Prod.fst := by
  induction es with
  | nil => simp [lookup]
  | cons e rest ih =>
    obtain ⟨k', v'⟩ := e
    by_cases h : k' = k
    · simp [lookup, h]
    · have h' : k ≠ k' := fun e => h e.symm
      simp [lookup, h, h', ih]

theorem mem_entries_of_lookup {k : κ} {v : ν} {es : List (κ × ν)} (h : lookup k es = some v) : (k, v) ∈ es := by
  induction es with
  | nil => cases h
  | cons e rest ih =>
    obtain ⟨k', v'⟩ := e
    rw [lookup] at h
    split at h
    · rename_i heq
      cases heq
      cases h
      exact List.mem_cons_self
    · exact List.mem_cons_of_mem _ (ih h)

theorem mem_of_lookup {k : κ} {v : ν} {es : List (κ × ν)} (h : lookup k es = some v) : v ∈ es.map Prod.snd :=
  List.mem_map_of_mem (mem_entries_of_lookup h)

/-- What is found under a key is one of the values. -/
theorem mem_values_of_find? {t : Table κ ν} {k : κ} {v : ν} (h : t.find? k = some v) : v ∈ t.values :=
  mem_of_lookup h

theorem mem_write {k : κ} {v : ν} {e : κ × ν} {es : List (κ × ν)} (h : e ∈ write k v es) :
    e = (k, v) ∨ e ∈ es := by
  induction es with
  | nil => exact Or.inl (List.mem_singleton.mp h)
  | cons e' rest ih =>
    obtain ⟨k', v'⟩ := e'
    rw [write] at h
    split at h
    · exact (List.mem_cons.mp h).imp_right (List.mem_cons_of_mem _)
    · rcases List.mem_cons.mp h with h | h
      · exact Or.inr (h ▸ List.mem_cons_self)
      · exact (ih h).imp_right (List.mem_cons_of_mem _)

/-- Writing adds no other value. -/
theorem mem_values_set {t : Table κ ν} {k : κ} {v u : ν} (h : u ∈ (t.set k v).values) : u = v ∨ u ∈ t.values := by
  obtain ⟨e, he, rfl⟩ := List.mem_map.mp h
  exact (mem_write he).imp (congrArg Prod.snd) List.mem_map_of_mem

/-- The entries of a table are among those it was made of. -/
theorem mem_entries_ofList {es : List (κ × ν)} {e : κ × ν} (h : e ∈ (ofList es).entries) : e ∈ es := by
  have fold : ∀ (es : List (κ × ν)) (t : Table κ ν), e ∈ (es.foldl (fun t e => t.set e.1 e.2) t).entries →
      e ∈ t.entries ∨ e ∈ es := by
    intro es
    induction es with
    | nil => exact fun t h => Or.inl h
    | cons e' rest ih =>
      intro t h
      rcases ih _ h with h | h
      · rcases mem_write h with h | h
        · exact Or.inr (h ▸ List.mem_cons_self)
        · exact Or.inl h
      · exact Or.inr (List.mem_cons_of_mem _ h)
  exact (fold es empty h).resolve_left List.not_mem_nil

/-- The values of a table are among those of the entries it was made of. -/
theorem mem_values_ofList {es : List (κ × ν)} {u : ν} (h : u ∈ (ofList es).values) : u ∈ es.map Prod.snd := by
  obtain ⟨e, he, rfl⟩ := List.mem_map.mp h
  exact List.mem_map_of_mem (mem_entries_ofList he)

theorem lookup_of_mem {k : κ} {v : ν} {es : List (κ × ν)} (hn : (es.map Prod.fst).Nodup) (h : (k, v) ∈ es) :
    lookup k es = some v := by
  induction es with
  | nil => cases h
  | cons e rest ih =>
    obtain ⟨k', v'⟩ := e
    obtain ⟨hk, hn⟩ := List.nodup_cons.mp hn
    rcases List.mem_cons.mp h with h | h
    · cases h
      exact if_pos rfl
    · have hne : k' ≠ k := fun e => hk (List.mem_map.mpr ⟨(k, v), h, e.symm⟩)
      rw [lookup, if_neg hne]
      exact ih hn h

/-- An entry is found under its key. -/
theorem find?_of_mem {t : Table κ ν} {k : κ} {v : ν} (h : (k, v) ∈ t.entries) : t.find? k = some v :=
  lookup_of_mem t.nodup h

theorem write_of_lookup {k : κ} {v : ν} {es : List (κ × ν)} (h : lookup k es = some v) : write k v es = es := by
  induction es with
  | nil => cases h
  | cons e rest ih =>
    obtain ⟨k', v'⟩ := e
    rw [lookup] at h
    rw [write]
    split at h
    · rename_i hk
      cases h
      rw [if_pos hk, hk]
    · rename_i hk
      rw [if_neg hk, ih h]

/-- Writing what is there already changes nothing. -/
theorem set_of_find? {t : Table κ ν} {k : κ} {v : ν} (h : t.find? k = some v) : t.set k v = t := by
  obtain ⟨entries, nodup⟩ := t
  simp only [set, write_of_lookup h]

theorem write_of_not_mem {k : κ} {v : ν} {es : List (κ × ν)} (h : k ∉ es.map Prod.fst) :
    write k v es = es ++ [(k, v)] := by
  induction es with
  | nil => rfl
  | cons e rest ih =>
    obtain ⟨k', v'⟩ := e
    obtain ⟨hk, hrest⟩ : k ≠ k' ∧ k ∉ rest.map Prod.fst := by simpa using h
    rw [write, if_neg fun e => hk e.symm, ih hrest, List.cons_append]

/-- The value of a new key goes to the end of the values. -/
theorem values_set_of_not_mem {t : Table κ ν} {k : κ} {v : ν} (h : k ∉ t.keys) :
    (t.set k v).values = t.values ++ [v] := by
  simp only [values, set, write_of_not_mem h, List.map_append, List.map_cons, List.map_nil]

theorem lookup_split {k : κ} {u : ν} {es : List (κ × ν)} (hn : (es.map Prod.fst).Nodup)
    (h : lookup k es = some u) : ∃ before after, es = before ++ (k, u) :: after ∧
      (∀ v, write k v es = before ++ (k, v) :: after) ∧ es.filter (fun e => e.1 ≠ k) = before ++ after := by
  induction es with
  | nil => cases h
  | cons e rest ih =>
    obtain ⟨k', v'⟩ := e
    obtain ⟨hk, hrest⟩ := List.nodup_cons.mp hn
    rw [lookup] at h
    split at h
    · rename_i heq
      cases heq
      cases h
      refine ⟨[], rest, rfl, fun v => by rw [write, if_pos rfl]; rfl, ?_⟩
      rw [List.filter_cons_of_neg (by simp), List.filter_eq_self.mpr]
      · rfl
      · exact fun e he => decide_eq_true fun heq => hk (List.mem_map.mpr ⟨e, he, heq⟩)
    · rename_i hne
      obtain ⟨before, after, hsplit, hwrite, hfilter⟩ := ih hrest h
      refine ⟨(k', v') :: before, after, by rw [hsplit]; rfl, fun v => ?_, ?_⟩
      · rw [write, if_neg hne, hwrite, List.cons_append]
      · rw [List.filter_cons_of_pos (by simpa using hne), hfilter, List.cons_append]

/-- The values of a table around one of them: another in its place, and without it. -/
theorem exists_values_split {t : Table κ ν} {k : κ} {u : ν} (h : t.find? k = some u) :
    ∃ before after, t.values = before ++ u :: after ∧ (∀ v, (t.set k v).values = before ++ v :: after) ∧
      (t.erase k).values = before ++ after := by
  obtain ⟨before, after, hsplit, hwrite, hfilter⟩ := lookup_split t.nodup h
  refine ⟨before.map Prod.snd, after.map Prod.snd, ?_, fun v => ?_, ?_⟩
  · simp only [values, hsplit, List.map_append, List.map_cons]
  · simp only [values, set, hwrite, List.map_append, List.map_cons]
  · simp only [values, erase, hfilter, List.map_append]

/-- A value in the place of one that a function does not tell from it leaves what the function makes
    of the values. -/
theorem filterMap_values_set {f : ν → Option μ} {t : Table κ ν} {k : κ} {u v : ν} (h : t.find? k = some u)
    (hf : f v = f u) : (t.set k v).values.filterMap f = t.values.filterMap f := by
  obtain ⟨before, after, hvalues, hset, -⟩ := exists_values_split h
  rw [hset, hvalues, List.filterMap_append, List.filterMap_append, List.filterMap_cons, List.filterMap_cons, hf]

/-- A value that is pushed is the last one, behind those under other keys. -/
theorem values_push (t : Table κ ν) (k : κ) (v : ν) : (t.push k v).values = (t.erase k).values ++ [v] :=
  values_set_of_not_mem (by rw [keys_erase]; simp)

/-- Erasing a key that is not there changes nothing. -/
theorem erase_of_find? {t : Table κ ν} {k : κ} (h : t.find? k = none) : (t.erase k).values = t.values := by
  have hk : ∀ e ∈ t.entries, e.1 ≠ k := fun e he heq =>
    Option.not_isSome_iff_eq_none.mpr h ((lookup_isSome_iff k t.entries).mpr (List.mem_map.mpr ⟨e, he, heq⟩))
  exact congrArg (List.map Prod.snd) (List.filter_eq_self.mpr fun e he => decide_eq_true (hk e he))

theorem entries_ofList {es : List (κ × ν)} (h : (es.map Prod.fst).Nodup) : (ofList es).entries = es := by
  have fold : ∀ (es : List (κ × ν)) (t : Table κ ν), ((t.entries ++ es).map Prod.fst).Nodup →
      (es.foldl (fun t e => t.set e.1 e.2) t).entries = t.entries ++ es := by
    intro es
    induction es with
    | nil => exact fun t _ => (List.append_nil _).symm
    | cons e rest ih =>
      intro t hn
      have hnew : e.1 ∉ t.entries.map Prod.fst := by
        rw [List.map_append, List.nodup_append] at hn
        exact fun h => hn.2.2 e.1 h e.1 List.mem_cons_self rfl
      have hset : (t.set e.1 e.2).entries = t.entries ++ [e] := write_of_not_mem hnew
      rw [List.foldl_cons, ih, hset, List.append_assoc, List.singleton_append]
      rwa [hset, List.append_assoc, List.singleton_append]
  exact fold es empty h

/-- A table is the table of its entries. -/
theorem ofList_entries (t : Table κ ν) : ofList t.entries = t := by
  have h := entries_ofList t.nodup
  obtain ⟨entries, nodup⟩ := t
  generalize ofList entries = u at h
  obtain ⟨entries', nodup'⟩ := u
  cases h
  rfl

/-- The table with values under several keys, written one after the other. -/
def setAll (t : Table κ ν) (es : List (κ × ν)) : Table κ ν := es.foldl (fun t e => t.set e.1 e.2) t

/-- Of values under different keys each is found under its key, and all else as before. -/
theorem find?_setAll {es : List (κ × ν)} (h : (es.map Prod.fst).Nodup) (t : Table κ ν) (k : κ) :
    (t.setAll es).find? k = (lookup k es).or (t.find? k) := by
  induction es generalizing t with
  | nil => rfl
  | cons e rest ih =>
    obtain ⟨k', v⟩ := e
    obtain ⟨hk, hrest⟩ := List.nodup_cons.mp h
    rw [show t.setAll ((k', v) :: rest) = (t.set k' v).setAll rest from rfl, ih hrest, find?_set, lookup]
    split
    · rename_i heq
      subst heq
      rw [Option.not_isSome_iff_eq_none.mp fun h => hk ((lookup_isSome_iff k' rest).mp h)]
      rfl
    · rfl

/-- Several writes leave the keys that were there in their places, and new ones go to the end. -/
theorem exists_keys_setAll (es : List (κ × ν)) (t : Table κ ν) :
    ∃ more, (t.setAll es).keys = t.keys ++ more := by
  induction es generalizing t with
  | nil => exact ⟨[], (List.append_nil _).symm⟩
  | cons e rest ih =>
    obtain ⟨more, hmore⟩ := ih (t.set e.1 e.2)
    rw [show t.setAll (e :: rest) = (t.set e.1 e.2).setAll rest from rfl, hmore, keys_set]
    split
    · exact ⟨more, rfl⟩
    · exact ⟨[e.1] ++ more, List.append_assoc ..⟩

theorem mem_keys_setAll {es : List (κ × ν)} {t : Table κ ν} {k : κ} :
    k ∈ (t.setAll es).keys ↔ k ∈ t.keys ∨ k ∈ es.map Prod.fst := by
  induction es generalizing t with
  | nil => simp [setAll]
  | cons e rest ih =>
    rw [show t.setAll (e :: rest) = (t.set e.1 e.2).setAll rest from rfl, ih, keys_set]
    split
    · rename_i h
      rw [List.map_cons, List.mem_cons]
      exact ⟨Or.imp id .inr, Or.rec .inl (Or.rec (fun e => .inl (e ▸ h)) .inr)⟩
    · simp [or_assoc]

/-- Writing values that are all there already changes nothing. -/
theorem setAll_self {es : List (κ × ν)} {t : Table κ ν} (h : ∀ e ∈ es, t.find? e.1 = some e.2) :
    t.setAll es = t := by
  induction es with
  | nil => rfl
  | cons e rest ih =>
    rw [show t.setAll (e :: rest) = (t.set e.1 e.2).setAll rest from rfl, set_of_find? (h e List.mem_cons_self)]
    exact ih fun e he => h e (List.mem_cons_of_mem _ he)

/-- A table contains its keys. -/
theorem contains_iff (t : Table κ ν) (k : κ) : t.contains k = true ↔ k ∈ t.keys := lookup_isSome_iff k t.entries

end Table

end Clearance
