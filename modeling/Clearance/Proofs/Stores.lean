import Mathlib.Data.List.Induction
import Clearance.Proofs.Logs
import Clearance.Table

/-!
# Stores and their logs

A store keeps values under names. A log tells what was done with it: a value was put under a name, a
name was dropped, or all names were. Stores differ in where a value goes whose name is taken. In a
queue the name goes to the end, and on a shelf it keeps its place.

* `Store.IsLatest`, `Store.IsEntered`: which value is the last under a name, and when the name came
  to the store.
* `Store.queue`, `Store.shelf`: the tables that the deeds make.
* `Store.isQueue_queue`, `Store.isShelf_shelf`: what is kept in them, and in which order.
-/

namespace Clearance.Store

variable {κ ν : Type}

/-! ## Logs -/

/-- What was done with a store. -/
inductive Deed (κ ν : Type) where
  | put (name : κ) (v : ν)
  | drop (name : κ)
  | clear

/-- A deed takes a name from the store. -/
def Deed.Takes (name : κ) : Deed κ ν → Prop
  | .put _ _ => False
  | .drop other => other = name
  | .clear => True

/-- A deed takes the value under a name from the store, be it that another takes its place. -/
def Deed.Ends (name : κ) : Deed κ ν → Prop
  | .put other _ => other = name
  | .drop other => other = name
  | .clear => True

/-- After the deeds `before` the value was put under the name, and none of the later deeds took it
    away. -/
def IsLatest (log : List (Deed κ ν)) (name : κ) (v : ν) (before : List (Deed κ ν)) : Prop :=
  ∃ later, log = before ++ .put name v :: later ∧ ∀ deed ∈ later, ¬deed.Ends name

/-- A value is kept under the name. -/
def Keeps (log : List (Deed κ ν)) (name : κ) : Prop := ∃ v before, IsLatest log name v before

/-- After the deeds `before`, when nothing was kept under the name, a value was put there, and none of
    the later deeds took the name away. -/
def IsEntered (log : List (Deed κ ν)) (name : κ) (before : List (Deed κ ν)) : Prop :=
  ∃ v later, log = before ++ .put name v :: later ∧ ¬Keeps before name ∧ ∀ deed ∈ later, ¬deed.Takes name

variable {log before : List (Deed κ ν)} {deed : Deed κ ν} {name : κ} {v : ν}

theorem Deed.Takes.ends (h : deed.Takes name) : deed.Ends name := by
  cases deed with
  | put => exact h.elim
  | drop => exact h
  | clear => trivial

theorem not_isLatest_nil : ¬IsLatest [] name v before := by
  rintro ⟨later, h, -⟩
  simp at h

theorem IsLatest.length_lt (h : IsLatest log name v before) : before.length < log.length := by
  obtain ⟨later, rfl, -⟩ := h
  rw [List.length_append, List.length_cons]
  omega

theorem IsEntered.length_lt (h : IsEntered log name before) : before.length < log.length := by
  obtain ⟨v, later, rfl, -⟩ := h
  rw [List.length_append, List.length_cons]
  omega

/-- One deed more: what it puts is the latest, and what was the latest still is, unless it ends that. -/
theorem isLatest_concat : IsLatest (log ++ [deed]) name v before ↔
    (deed = .put name v ∧ before = log) ∨ ¬deed.Ends name ∧ IsLatest log name v before := by
  constructor
  · rintro ⟨later, hsplit, hlater⟩
    rcases Log.concat_eq_split_iff.mp hsplit with ⟨rfl, rfl, rfl⟩ | ⟨between, rfl, rfl⟩
    · exact .inl ⟨rfl, rfl⟩
    · refine .inr ⟨hlater deed (by simp), between, rfl, fun d hd => hlater d (by simp [hd])⟩
  · rintro (⟨rfl, rfl⟩ | ⟨hends, later, rfl, hlater⟩)
    · exact ⟨[], rfl, by simp⟩
    · refine ⟨later ++ [deed], by simp, fun d hd => ?_⟩
      rcases List.mem_append.mp hd with hd | hd
      · exact hlater d hd
      · exact List.mem_singleton.mp hd ▸ hends

/-- One deed more: a name that it brings is entered, and what was entered still is, unless it takes
    that away. -/
theorem isEntered_concat : IsEntered (log ++ [deed]) name before ↔
    ((∃ v, deed = .put name v) ∧ before = log ∧ ¬Keeps log name) ∨
      ¬deed.Takes name ∧ IsEntered log name before := by
  constructor
  · rintro ⟨v, later, hsplit, hkeeps, hlater⟩
    rcases Log.concat_eq_split_iff.mp hsplit with ⟨rfl, rfl, rfl⟩ | ⟨between, rfl, rfl⟩
    · exact .inl ⟨⟨v, rfl⟩, rfl, hkeeps⟩
    · refine .inr ⟨hlater deed (by simp), v, between, rfl, hkeeps, fun d hd => hlater d (by simp [hd])⟩
  · rintro (⟨⟨v, rfl⟩, rfl, hkeeps⟩ | ⟨htakes, v, later, rfl, hkeeps, hlater⟩)
    · exact ⟨v, [], rfl, hkeeps, by simp⟩
    · refine ⟨v, later ++ [deed], by simp, hkeeps, fun d hd => ?_⟩
      rcases List.mem_append.mp hd with hd | hd
      · exact hlater d hd
      · exact List.mem_singleton.mp hd ▸ htakes

/-- A name under which something is kept was entered. -/
theorem Keeps.exists_isEntered (h : Keeps log name) : ∃ before, IsEntered log name before := by
  induction log using List.reverseRecOn with
  | nil =>
    obtain ⟨v, before, h⟩ := h
    exact absurd h not_isLatest_nil
  | append_singleton log deed ih =>
    obtain ⟨v, before, h⟩ := h
    rcases isLatest_concat.mp h with ⟨rfl, rfl⟩ | ⟨hends, h⟩
    · by_cases hkeeps : Keeps before name
      · obtain ⟨entry, hentry⟩ := ih hkeeps
        exact ⟨entry, isEntered_concat.mpr (.inr ⟨id, hentry⟩)⟩
      · exact ⟨before, isEntered_concat.mpr (.inl ⟨⟨v, rfl⟩, rfl, hkeeps⟩)⟩
    · obtain ⟨entry, hentry⟩ := ih ⟨v, before, h⟩
      exact ⟨entry, isEntered_concat.mpr (.inr ⟨fun htakes => hends htakes.ends, hentry⟩)⟩

/-! ## What a store keeps -/

/-- A table holds what the log tells: under each name the latest value. The names stand in the order in
    which these were put there. -/
structure IsQueue (log : List (Deed κ ν)) (t : Table κ ν) : Prop where
  nodup : t.keys.Nodup
  mem_iff : ∀ name v, (name, v) ∈ t.entries ↔ ∃ before, IsLatest log name v before
  order : t.keys.Pairwise fun a b => ∃ u v first second,
    IsLatest log a u first ∧ IsLatest log b v second ∧ first.length < second.length

/-- A table holds what the log tells: under each name the latest value. The names stand in the order in
    which they were entered. -/
structure IsShelf (log : List (Deed κ ν)) (t : Table κ ν) : Prop where
  nodup : t.keys.Nodup
  mem_iff : ∀ name v, (name, v) ∈ t.entries ↔ ∃ before, IsLatest log name v before
  order : t.keys.Pairwise fun a b => ∃ first second,
    IsEntered log a first ∧ IsEntered log b second ∧ first.length < second.length

variable [DecidableEq κ] {t : Table κ ν}

/-- What a deed makes of a queue. -/
def enqueue (t : Table κ ν) : Deed κ ν → Table κ ν
  | .put name v => t.push name v
  | .drop name => t.erase name
  | .clear => Table.empty

/-- What a deed makes of a shelf. -/
def shelve (t : Table κ ν) : Deed κ ν → Table κ ν
  | .put name v => t.set name v
  | .drop name => t.erase name
  | .clear => Table.empty

/-- The queue that the deeds of a log make. -/
def queue (log : List (Deed κ ν)) : Table κ ν := log.foldl enqueue Table.empty

/-- The shelf that the deeds of a log make. -/
def shelf (log : List (Deed κ ν)) : Table κ ν := log.foldl shelve Table.empty

theorem mem_entries_iff {e : κ × ν} : e ∈ t.entries ↔ t.find? e.1 = some e.2 :=
  ⟨Table.find?_of_mem, Table.mem_entries_of_lookup⟩

theorem find?_enqueue (t : Table κ ν) (deed : Deed κ ν) (name : κ) (v : ν) :
    (enqueue t deed).find? name = some v ↔ deed = .put name v ∨ ¬deed.Ends name ∧ t.find? name = some v := by
  cases deed with
  | put other u =>
    by_cases h : other = name <;> simp [enqueue, Table.push, Table.find?_set, Table.find?_erase, Deed.Ends, h]
  | drop other => by_cases h : other = name <;> simp [enqueue, Table.find?_erase, Deed.Ends, h]
  | clear => simp [enqueue, Deed.Ends]

theorem find?_shelve (t : Table κ ν) (deed : Deed κ ν) (name : κ) (v : ν) :
    (shelve t deed).find? name = some v ↔ deed = .put name v ∨ ¬deed.Ends name ∧ t.find? name = some v := by
  cases deed with
  | put other u => by_cases h : other = name <;> simp [shelve, Table.find?_set, Deed.Ends, h]
  | drop other => by_cases h : other = name <;> simp [shelve, Table.find?_erase, Deed.Ends, h]
  | clear => simp [shelve, Deed.Ends]

/-- Whatever the order of the names is, deeds that put, drop and clear leave the latest values. -/
theorem find?_foldl_iff {step : Table κ ν → Deed κ ν → Table κ ν}
    (hstep : ∀ t deed name v,
      (step t deed).find? name = some v ↔ deed = .put name v ∨ ¬deed.Ends name ∧ t.find? name = some v) :
    (log.foldl step Table.empty).find? name = some v ↔ ∃ before, IsLatest log name v before := by
  induction log using List.reverseRecOn with
  | nil => exact iff_of_false nofun fun ⟨_, h⟩ => not_isLatest_nil h
  | append_singleton log deed ih =>
    rw [List.foldl_append, List.foldl_cons, List.foldl_nil, hstep, ih]
    constructor
    · rintro (rfl | ⟨hends, before, h⟩)
      · exact ⟨log, isLatest_concat.mpr (.inl ⟨rfl, rfl⟩)⟩
      · exact ⟨before, isLatest_concat.mpr (.inr ⟨hends, h⟩)⟩
    · rintro ⟨before, h⟩
      rcases isLatest_concat.mp h with ⟨rfl, -⟩ | ⟨hends, h⟩
      · exact .inl rfl
      · exact .inr ⟨hends, before, h⟩

theorem find?_queue_iff : (queue log).find? name = some v ↔ ∃ before, IsLatest log name v before :=
  find?_foldl_iff find?_enqueue

theorem find?_shelf_iff : (shelf log).find? name = some v ↔ ∃ before, IsLatest log name v before :=
  find?_foldl_iff find?_shelve

theorem keeps_of_mem_keys {t : Table κ ν}
    (ht : ∀ name v, t.find? name = some v ↔ ∃ before, IsLatest log name v before) (h : name ∈ t.keys) :
    Keeps log name := by
  obtain ⟨v, hv⟩ := Option.isSome_iff_exists.mp ((Table.contains_iff t name).mpr h)
  exact ⟨v, (ht name v).mp hv⟩

/-! ## The order of the names -/

theorem queue_concat : queue (log ++ [deed]) = enqueue (queue log) deed := List.foldl_concat ..

theorem shelf_concat : shelf (log ++ [deed]) = shelve (shelf log) deed := List.foldl_concat ..

/-- In a queue the names stand in the order of their latest values. -/
theorem pairwise_queue (log : List (Deed κ ν)) : (queue log).keys.Pairwise fun a b => ∃ u v first second,
    IsLatest log a u first ∧ IsLatest log b v second ∧ first.length < second.length := by
  induction log using List.reverseRecOn with
  | nil => exact .nil
  | append_singleton log deed ih =>
    -- Names whose values the deed leaves keep their order.
    have hrest : ∀ names : List κ, names.Sublist (queue log).keys → (∀ name ∈ names, ¬deed.Ends name) →
        names.Pairwise fun a b => ∃ u v first second, IsLatest (log ++ [deed]) a u first ∧
          IsLatest (log ++ [deed]) b v second ∧ first.length < second.length := by
      intro names hsub hnames
      refine (ih.sublist hsub).imp_of_mem fun {a b} ha hb ⟨u, v, first, second, hu, hv, hlt⟩ => ?_
      exact ⟨u, v, first, second, isLatest_concat.mpr (.inr ⟨hnames a ha, hu⟩),
        isLatest_concat.mpr (.inr ⟨hnames b hb, hv⟩), hlt⟩
    have hother : ∀ name, ∀ other ∈ (queue log).keys.filter (· ≠ name), name ≠ other := by
      intro name other hmem heq
      exact of_decide_eq_true (List.mem_filter.mp hmem).2 heq.symm
    rw [queue_concat]
    cases deed with
    | put name v =>
      have hnew : name ∉ ((queue log).erase name).keys := by simp [Table.keys_erase]
      rw [enqueue, Table.push, Table.keys_set, if_neg hnew, Table.keys_erase]
      refine List.pairwise_append.mpr
        ⟨hrest _ List.filter_sublist (hother name), List.pairwise_singleton .., fun other hmem last hlast => ?_⟩
      obtain rfl := List.mem_singleton.mp hlast
      obtain ⟨u, first, hfirst⟩ :=
        keeps_of_mem_keys (fun _ _ => find?_queue_iff) (List.mem_of_mem_filter hmem)
      exact ⟨u, v, first, log, isLatest_concat.mpr (.inr ⟨hother last other hmem, hfirst⟩),
        isLatest_concat.mpr (.inl ⟨rfl, rfl⟩), hfirst.length_lt⟩
    | drop name =>
      rw [enqueue, Table.keys_erase]
      exact hrest _ List.filter_sublist (hother name)
    | clear => exact .nil

/-- On a shelf the names stand in the order in which they were entered. -/
theorem pairwise_shelf (log : List (Deed κ ν)) : (shelf log).keys.Pairwise fun a b => ∃ first second,
    IsEntered log a first ∧ IsEntered log b second ∧ first.length < second.length := by
  induction log using List.reverseRecOn with
  | nil => exact .nil
  | append_singleton log deed ih =>
    -- Names that the deed leaves keep their order.
    have hrest : ∀ names : List κ, names.Sublist (shelf log).keys → (∀ name ∈ names, ¬deed.Takes name) →
        names.Pairwise fun a b => ∃ first second, IsEntered (log ++ [deed]) a first ∧
          IsEntered (log ++ [deed]) b second ∧ first.length < second.length := by
      intro names hsub hnames
      refine (ih.sublist hsub).imp_of_mem fun {a b} ha hb ⟨first, second, hfirst, hsecond, hlt⟩ => ?_
      exact ⟨first, second, isEntered_concat.mpr (.inr ⟨hnames a ha, hfirst⟩),
        isEntered_concat.mpr (.inr ⟨hnames b hb, hsecond⟩), hlt⟩
    rw [shelf_concat]
    cases deed with
    | put name v =>
      have hall := hrest _ (.refl _) fun _ _ => id
      rw [shelve, Table.keys_set]
      split
      · exact hall
      · rename_i hnew
        refine List.pairwise_append.mpr ⟨hall, List.pairwise_singleton .., fun other hother last hlast => ?_⟩
        obtain rfl := List.mem_singleton.mp hlast
        obtain ⟨first, hfirst⟩ := (keeps_of_mem_keys (fun _ _ => find?_shelf_iff) hother).exists_isEntered
        have habsent : ¬Keeps log last := by
          rintro ⟨u, h⟩
          exact hnew ((Table.contains_iff _ _).mp (Option.isSome_of_eq_some (find?_shelf_iff.mpr h)))
        exact ⟨first, log, isEntered_concat.mpr (.inr ⟨id, hfirst⟩),
          isEntered_concat.mpr (.inl ⟨⟨v, rfl⟩, rfl, habsent⟩), hfirst.length_lt⟩
    | drop name =>
      rw [shelve, Table.keys_erase]
      refine hrest _ List.filter_sublist fun other hother h => ?_
      exact of_decide_eq_true (List.mem_filter.mp hother).2 h.symm
    | clear => exact .nil

theorem isQueue_queue (log : List (Deed κ ν)) : IsQueue log (queue log) where
  nodup := Table.nodup_keys _
  mem_iff _ _ := mem_entries_iff.trans find?_queue_iff
  order := pairwise_queue log

theorem isShelf_shelf (log : List (Deed κ ν)) : IsShelf log (shelf log) where
  nodup := Table.nodup_keys _
  mem_iff _ _ := mem_entries_iff.trans find?_shelf_iff
  order := pairwise_shelf log

end Clearance.Store
