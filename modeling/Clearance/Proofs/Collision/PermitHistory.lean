import Mathlib.Data.Set.Card
import Mathlib.Data.String.Basic
import Mathlib.Data.Sym.Sym2
import Clearance.Collision.Allowed
import Clearance.Proofs.Logs

/-!
# Histories of a table of allowed collisions

What a table says after any number of changes is told by the list of the changes: for every
unordered pair of names the last write that no removal followed, and otherwise the default, if both
names are known by then.

* `AllowedCollisions.Action`, `AllowedCollisions.after`: what can be done with a table.
* `AllowedCollisions.Writes`, `AllowedCollisions.IsLive`: which action writes for a pair, and which
  write is the last one.
* `AllowedCollisions.find?_step`: what one action does to the entries.
* `AllowedCollisions.follows_after`: what all of them do to the table.
* `AllowedCollisions.pairwise_sorted`: the order in which what is written is listed.
* `AllowedCollisions.tells_history`: everything that can be read from the table.
-/

namespace Clearance.AllowedCollisions

/-! ## Actions -/

/-- What can be done with a table. -/
inductive Action where
  | set (a b : String) (allowed : Bool)
  /-- Writes for a name with each of others, or with all names known by then. -/
  | setAll (name : String) (others : Option (List String)) (allowed : Bool)
  | remove (a b : String)
  | addName (name : String)

/-- The table after an action. -/
def step (m : AllowedCollisions) : Action → AllowedCollisions
  | .set a b allowed => m.set a b allowed
  | .setAll name others allowed => m.setAll name others allowed
  | .remove a b => m.remove a b
  | .addName name => m.addName name

/-- The table that is made with known names and a default, after actions. -/
def after (names : List String) (default : Bool) (actions : List Action) : AllowedCollisions :=
  actions.foldl step (make names default)

/-! ## What the actions say -/

/-- The name was given when the table was made, or it was added. -/
def Knows (names : List String) (actions : List Action) (name : String) : Prop :=
  name ∈ names ∨ .addName name ∈ actions

/-- The names that an action writes for are those that it is given, or all names known by then. -/
def AreMeant (knows : String → Prop) : Option (List String) → String → Prop
  | some others, name => name ∈ others
  | none, name => knows name

/-- The action writes a value for an unordered pair, if these names are known by then. -/
def Writes (knows : String → Prop) (pair : Sym2 String) (v : Bool) : Action → Prop
  | .set a b allowed => s(a, b) = pair ∧ allowed = v
  | .setAll name others allowed =>
    (∃ other, AreMeant knows others other ∧ other ≠ name ∧ s(name, other) = pair) ∧ allowed = v
  | .remove _ _ => False
  | .addName _ => False

/-- The action takes back what is written for an unordered pair. -/
def Removes (pair : Sym2 String) : Action → Prop
  | .remove a b => s(a, b) = pair
  | _ => False

/-- The value of the last write for a pair, which no removal followed. -/
def IsLive (names : List String) (actions : List Action) (pair : Sym2 String) (allowed : Bool) : Prop :=
  ∃ before action later, actions = before ++ action :: later ∧
    Writes (Knows names before) pair allowed action ∧
    ∀ mid next rest, later = mid ++ next :: rest →
      ¬Removes pair next ∧ ∀ v, ¬Writes (Knows names (before ++ action :: mid)) pair v next

variable {names : List String} {default : Bool} {actions : List Action} {pair : Sym2 String}
  {a b : String} {v : Bool}

theorem not_isLive_nil : ¬IsLive names [] pair v := by
  rintro ⟨before, action, later, h, -⟩
  simp at h

/-- One action more: its value is live if it writes, and otherwise what was live, unless the action
    removes that. -/
theorem isLive_concat (action : Action) :
    IsLive names (actions ++ [action]) pair v ↔ Writes (Knows names actions) pair v action ∨
      IsLive names actions pair v ∧ ¬Removes pair action ∧
        ∀ u, ¬Writes (Knows names actions) pair u action := by
  constructor
  · rintro ⟨before, first, later, hsplit, hwrites, hlast⟩
    rcases Log.concat_eq_split_iff.mp hsplit with ⟨rfl, rfl, rfl⟩ | ⟨between, rfl, rfl⟩
    · exact .inl hwrites
    · refine .inr ⟨⟨before, first, between, rfl, hwrites, fun mid next rest h => ?_⟩, hlast between action [] rfl⟩
      exact hlast mid next (rest ++ [action]) (by rw [h, List.append_assoc, List.cons_append])
  · rintro (hwrites | ⟨⟨before, first, later, rfl, hwrites, hlast⟩, hover⟩)
    · exact ⟨actions, action, [], rfl, hwrites, fun mid next rest h => by simp at h⟩
    · refine ⟨before, first, later ++ [action], by simp, hwrites, fun mid next rest h => ?_⟩
      rcases Log.concat_eq_split_iff.mp h with ⟨rfl, rfl, rfl⟩ | ⟨between, rfl, rfl⟩
      · exact hover
      · exact hlast mid next between rfl

theorem knows_concat (action : Action) (name : String) :
    Knows names (actions ++ [action]) name ↔ Knows names actions name ∨ action = .addName name := by
  unfold Knows
  rw [List.mem_append, List.mem_singleton, or_assoc, eq_comm (a := action)]

/-! ## What the actions do -/

theorem mem_insertName {known : List String} {name other : String} :
    other ∈ insertName known name ↔ other ∈ known ∨ other = name := by
  unfold insertName
  split
  · rename_i h
    exact ⟨.inl, Or.rec id fun heq => heq ▸ List.contains_iff_mem.mp h⟩
  · rw [List.mem_append, List.mem_singleton]

theorem mem_known_make {default : Bool} {name : String} : name ∈ (make names default).known ↔ name ∈ names := by
  have fold : ∀ (given known : List String),
      name ∈ given.foldl insertName known ↔ name ∈ known ∨ name ∈ given := by
    intro given
    induction given with
    | nil => simp
    | cons first rest ih =>
      intro known
      rw [List.foldl_cons, ih, mem_insertName, List.mem_cons, or_assoc]
  exact (fold names []).trans (by simp)

/-- Writing for a name with others leaves the known names and the default. -/
theorem foldl_set (m : AllowedCollisions) (name : String) (others : List String) (allowed : Bool) :
    (others.foldl (fun m other => m.set name other allowed) m).known = m.known ∧
      (others.foldl (fun m other => m.set name other allowed) m).default = m.default := by
  induction others generalizing m with
  | nil => exact ⟨rfl, rfl⟩
  | cons other rest ih => exact ih (m.set name other allowed)

/-- Writing for a name with others writes for their pairs and no other. -/
theorem find?_foldl_set (m : AllowedCollisions) (name : String) (others : List String) (allowed : Bool)
    (key : String × String) :
    (others.foldl (fun m other => m.set name other allowed) m).entries.find? key =
      if ∃ other ∈ others, pairKey name other = key then some allowed else m.entries.find? key := by
  induction others generalizing m with
  | nil => simp
  | cons other rest ih =>
    rw [List.foldl_cons, ih, set, Table.find?_set]
    by_cases hrest : ∃ other ∈ rest, pairKey name other = key
    · obtain ⟨other', hmem, heq⟩ := hrest
      rw [if_pos ⟨other', hmem, heq⟩, if_pos ⟨other', List.mem_cons_of_mem _ hmem, heq⟩]
    · rw [if_neg hrest]
      by_cases hfirst : pairKey name other = key
      · rw [if_pos hfirst, if_pos ⟨other, List.mem_cons_self, hfirst⟩]
      · have hnone : ¬∃ other' ∈ other :: rest, pairKey name other' = key := by
          rw [List.exists_mem_cons_iff]
          exact not_or.mpr ⟨hfirst, hrest⟩
        rw [if_neg hfirst, if_neg hnone]

/-- Unordered pairs are equal if they are kept under one key. -/
theorem pairKey_eq_iff_sym2 (a b c d : String) : pairKey a b = pairKey c d ↔ s(a, b) = s(c, d) := by
  rw [pairKey_eq_iff, Sym2.eq_iff]

/-- A key that is written, if `p` holds of it, or otherwise stays as it is. -/
theorem ite_eq_some_iff {p : Prop} [Decidable p] {allowed v : Bool} {old : Option Bool} :
    (if p then some allowed else old) = some v ↔
      (p ∧ allowed = v) ∨ old = some v ∧ ∀ u, ¬(p ∧ allowed = u) := by
  by_cases h : p <;> simp [h]

theorem mem_meant (m : AllowedCollisions) (name : String) (others : Option (List String)) (key : String × String) :
    (∃ other ∈ (others.getD m.known).filter (· ≠ name), pairKey name other = key) ↔
      ∃ other, AreMeant (· ∈ m.known) others other ∧ other ≠ name ∧ pairKey name other = key := by
  cases others <;> simp [AreMeant, and_assoc]

/-- What an action leaves under the key of a pair: what it writes, and otherwise what was there, unless
    it removes that. -/
theorem find?_step (m : AllowedCollisions) (action : Action) (a b : String) (v : Bool) :
    (m.step action).entries.find? (pairKey a b) = some v ↔ Writes (· ∈ m.known) s(a, b) v action ∨
      m.entries.find? (pairKey a b) = some v ∧ ¬Removes s(a, b) action ∧
        ∀ u, ¬Writes (· ∈ m.known) s(a, b) u action := by
  cases action with
  | set x y allowed =>
    simp only [step, set, Table.find?_set, Writes, Removes, not_false_eq_true, true_and, pairKey_eq_iff_sym2]
    exact ite_eq_some_iff
  | setAll name others allowed =>
    have hmeant := mem_meant m name others (pairKey a b)
    simp only [pairKey_eq_iff_sym2] at hmeant
    simp only [step, Writes, Removes, not_false_eq_true, true_and]
    rw [setAll, find?_foldl_set, ite_eq_some_iff]
    simp only [pairKey_eq_iff_sym2, hmeant]
  | remove x y =>
    simp only [step, remove, Table.find?_erase, Writes, Removes, not_false_eq_true, implies_true, and_true,
      false_or, pairKey_eq_iff_sym2]
    by_cases h : s(x, y) = s(a, b) <;> simp [h]
  | addName name =>
    simp only [step, addName, Writes, Removes, not_false_eq_true, implies_true, and_true, false_or]

theorem mem_known_step (m : AllowedCollisions) (action : Action) (name : String) :
    name ∈ (m.step action).known ↔ name ∈ m.known ∨ action = .addName name := by
  cases action with
  | set x y allowed => simp [step, set]
  | setAll name' others allowed => simp [step, setAll, (foldl_set ..).1]
  | remove x y => simp [step, remove]
  | addName name' => simp [step, addName, mem_insertName, eq_comm]

theorem default_step (m : AllowedCollisions) (action : Action) : (m.step action).default = m.default := by
  cases action with
  | setAll name others allowed => exact (foldl_set ..).2
  | _ => rfl

/-! ## Keys -/

/-- What is written is kept under keys of pairs. -/
def HasPairKeys (m : AllowedCollisions) : Prop := ∀ key ∈ m.entries.keys, ∃ a b, key = pairKey a b

theorem HasPairKeys.set {m : AllowedCollisions} (h : m.HasPairKeys) (a b : String) (allowed : Bool) :
    (m.set a b allowed).HasPairKeys := by
  intro key hkey
  rw [AllowedCollisions.set, Table.keys_set] at hkey
  split at hkey
  · exact h key hkey
  · rcases List.mem_append.mp hkey with hkey | hkey
    · exact h key hkey
    · exact ⟨a, b, List.mem_singleton.mp hkey⟩

theorem HasPairKeys.step {m : AllowedCollisions} (h : m.HasPairKeys) (action : Action) :
    (m.step action).HasPairKeys := by
  cases action with
  | set a b allowed => exact h.set a b allowed
  | setAll name others allowed =>
    have fold : ∀ (others : List String) (m : AllowedCollisions), m.HasPairKeys →
        (others.foldl (fun m other => m.set name other allowed) m).HasPairKeys := by
      intro others
      induction others with
      | nil => exact fun m hm => hm
      | cons other rest ih => exact fun m hm => ih _ (hm.set name other allowed)
    exact fold _ m h
  | remove a b =>
    intro key hkey
    rw [AllowedCollisions.step, remove, Table.keys_erase] at hkey
    exact h key (List.mem_of_mem_filter hkey)
  | addName name => exact h

/-- The names of a key are in order. -/
theorem pairKey_le (a b : String) : (pairKey a b).1 ≤ (pairKey a b).2 := by
  unfold pairKey
  split
  · rename_i h
    exact le_of_lt h
  · rename_i h
    exact not_lt.mp h

theorem pairKey_of_le {a b : String} (h : a ≤ b) : pairKey a b = (a, b) := if_neg (not_lt.mpr h)

/-! ## Histories -/

/-- The table says what the actions say. -/
structure Follows (names : List String) (default : Bool) (actions : List Action) (m : AllowedCollisions) :
    Prop where
  default_eq : m.default = default
  mem_known : ∀ name, name ∈ m.known ↔ Knows names actions name
  find?_eq : ∀ a b v, m.entries.find? (pairKey a b) = some v ↔ IsLive names actions s(a, b) v
  keys : m.HasPairKeys

theorem follows_make (names : List String) (default : Bool) : Follows names default [] (make names default) where
  default_eq := rfl
  mem_known name := by simp [mem_known_make, Knows]
  find?_eq a b v := iff_of_false nofun not_isLive_nil
  keys _ h := absurd h List.not_mem_nil

/-- One action more. -/
theorem Follows.step {m : AllowedCollisions} (h : Follows names default actions m) (action : Action) :
    Follows names default (actions ++ [action]) (m.step action) where
  default_eq := (default_step m action).trans h.default_eq
  mem_known name := by rw [mem_known_step, h.mem_known, knows_concat]
  find?_eq a b v := by
    have hknown : (· ∈ m.known) = Knows names actions := funext fun name => propext (h.mem_known name)
    rw [find?_step, isLive_concat, hknown, h.find?_eq]
  keys := h.keys.step action

/-- Any number of actions. -/
theorem follows_after (names : List String) (default : Bool) (actions : List Action) :
    Follows names default actions (after names default actions) := by
  induction actions using List.reverseRecOn with
  | nil => exact follows_make names default
  | append_singleton actions action ih =>
    rw [after, List.foldl_append]
    exact ih.step action

/-! ## What can be read -/

namespace Follows

variable {m : AllowedCollisions} (h : Follows names default actions m)

include h

theorem has_iff (a b : String) : m.has a b = true ↔ ∃ v, IsLive names actions s(a, b) v := by
  rw [has, Table.contains, Option.isSome_iff_exists]
  exact exists_congr fun v => h.find?_eq a b v

theorem get_of_isLive (hv : IsLive names actions s(a, b) v) : m.get a b = v := by
  rw [get, (h.find?_eq a b v).mpr hv]

theorem find?_of_not_isLive (hno : ¬∃ v, IsLive names actions s(a, b) v) : m.entries.find? (pairKey a b) = none :=
  Option.eq_none_iff_forall_ne_some.mpr fun v hv => hno ⟨v, (h.find?_eq a b v).mp hv⟩

theorem get_of_knows (hno : ¬∃ v, IsLive names actions s(a, b) v) (ha : Knows names actions a)
    (hb : Knows names actions b) : m.get a b = default := by
  have hknown : m.known.contains a ∧ m.known.contains b :=
    ⟨List.contains_iff_mem.mpr ((h.mem_known a).mpr ha), List.contains_iff_mem.mpr ((h.mem_known b).mpr hb)⟩
  simp only [get, h.find?_of_not_isLive hno, hknown, h.default_eq, Bool.true_and]

theorem get_of_not_knows (hno : ¬∃ v, IsLive names actions s(a, b) v)
    (hab : ¬(Knows names actions a ∧ Knows names actions b)) : m.get a b = false := by
  have hknown : (m.known.contains a && m.known.contains b) = false := by
    rw [← Bool.not_eq_true, Bool.and_eq_true, List.contains_iff_mem, List.contains_iff_mem, h.mem_known,
      h.mem_known]
    exact hab
  simp only [get, h.find?_of_not_isLive hno, hknown, Bool.false_and]

theorem mem_entries_iff : ((a, b), v) ∈ m.entries.entries ↔ a ≤ b ∧ IsLive names actions s(a, b) v := by
  constructor
  · intro hmem
    obtain ⟨c, d, hkey⟩ := h.keys (a, b) (List.mem_map.mpr ⟨_, hmem, rfl⟩)
    have hle : a ≤ b := by simpa only [← hkey] using pairKey_le c d
    refine ⟨hle, (h.find?_eq a b v).mp ?_⟩
    rw [pairKey_of_le hle]
    exact Table.find?_of_mem hmem
  · rintro ⟨hle, hlive⟩
    have hfind := (h.find?_eq a b v).mpr hlive
    rw [pairKey_of_le hle] at hfind
    exact Table.mem_entries_of_lookup hfind

/-- The keys are the live pairs. -/
theorem image_keys :
    (fun key => s(key.1, key.2)) '' {key | key ∈ m.entries.keys} = {pair | ∃ v, IsLive names actions pair v} := by
  ext pair
  constructor
  · rintro ⟨key, hkey, rfl⟩
    obtain ⟨⟨⟨a, b⟩, v⟩, hmem, rfl⟩ := List.mem_map.mp hkey
    exact ⟨v, (h.mem_entries_iff.mp hmem).2⟩
  · rintro ⟨v, hv⟩
    induction pair with
    | _ a b =>
      have hkey : pairKey a b ∈ m.entries.keys :=
        (m.entries.contains_iff _).mp ((h.has_iff a b).mpr ⟨v, hv⟩)
      refine ⟨pairKey a b, hkey, ?_⟩
      rw [← pairKey_eq_iff_sym2]
      exact pairKey_of_le (pairKey_le a b)

/-- The size is the number of live pairs. -/
theorem encard_eq : {pair | ∃ v, IsLive names actions pair v}.encard = m.size := by
  have hinj : Set.InjOn (fun key : String × String => s(key.1, key.2)) {key | key ∈ m.entries.keys} := by
    intro key hkey key' hkey' heq
    obtain ⟨c, d, rfl⟩ := h.keys key hkey
    obtain ⟨c', d', rfl⟩ := h.keys key' hkey'
    have hpair := (pairKey_eq_iff_sym2 _ _ _ _).mpr heq
    rwa [pairKey_of_le (pairKey_le c d), pairKey_of_le (pairKey_le c' d')] at hpair
  have hset : {key | key ∈ m.entries.keys} = (m.entries.keys.toFinset : Set (String × String)) := by
    ext key
    simp
  rw [← h.image_keys, hinj.encard_image, hset, Set.encard_coe_eq_coe_finsetCard,
    List.toFinset_card_of_nodup m.entries.nodup_keys]
  exact congrArg Nat.cast (List.length_map _)

end Follows

/-- One pair of names comes before another in lexicographic order. -/
def PairBefore (p q : String × String) : Prop := p.1 < q.1 ∨ p.1 = q.1 ∧ p.2 < q.2

theorem pairLe_iff (p q : String × String) : pairLe p q = true ↔ PairBefore p q ∨ p = q := by
  obtain ⟨a, b⟩ := p
  obtain ⟨c, d⟩ := q
  simp only [pairLe, PairBefore, Bool.or_eq_true, Bool.and_eq_true, decide_eq_true_eq, beq_iff_eq, Prod.mk.injEq,
    le_iff_lt_or_eq]
  tauto

theorem PairBefore.trans {p q r : String × String} (hpq : PairBefore p q) (hqr : PairBefore q r) :
    PairBefore p r := by
  rcases hpq with hpq | ⟨hpq, hpq'⟩ <;> rcases hqr with hqr | ⟨hqr, hqr'⟩
  · exact .inl (hpq.trans hqr)
  · exact .inl (hqr ▸ hpq)
  · exact .inl (hpq ▸ hqr)
  · exact .inr ⟨hpq.trans hqr, hpq'.trans hqr'⟩

theorem pairBefore_trichotomy (p q : String × String) : PairBefore p q ∨ p = q ∨ PairBefore q p := by
  obtain ⟨a, b⟩ := p
  obtain ⟨c, d⟩ := q
  rcases lt_trichotomy a c with h | rfl | h
  · exact .inl (.inl h)
  · rcases lt_trichotomy b d with h | rfl | h
    · exact .inl (.inr ⟨rfl, h⟩)
    · exact .inr (.inl rfl)
    · exact .inr (.inr (.inr ⟨rfl, h⟩))
  · exact .inr (.inr (.inl h))

/-- What is written is listed in lexicographic order, each pair once. -/
theorem pairwise_sorted (m : AllowedCollisions) : m.sorted.Pairwise fun e f => PairBefore e.1 f.1 := by
  have hle : m.sorted.Pairwise fun e f => pairLe e.1 f.1 = true := by
    refine List.pairwise_mergeSort (fun e f g hef hfg => ?_) (fun e f => ?_) _
    · rw [pairLe_iff] at hef hfg ⊢
      rcases hef with hef | hef <;> rcases hfg with hfg | hfg
      · exact .inl (hef.trans hfg)
      · exact .inl (hfg ▸ hef)
      · exact .inl (hef ▸ hfg)
      · exact .inr (hef.trans hfg)
    · rw [Bool.or_eq_true, pairLe_iff, pairLe_iff]
      rcases pairBefore_trichotomy e.1 f.1 with h | h | h
      · exact .inl (.inl h)
      · exact .inl (.inr h)
      · exact .inr (.inl h)
  have hne : (m.sorted.map Prod.fst).Nodup :=
    ((List.mergeSort_perm ..).map Prod.fst).nodup_iff.mpr m.entries.nodup
  refine (hle.and (List.pairwise_map.mp hne)).imp fun {e f} hef => ?_
  exact ((pairLe_iff _ _).mp hef.1).resolve_right hef.2

/-- What a table says after any actions is what the actions say. The entry of a pair does not depend
    on the order of its names. It is the value of the last write for the pair that no removal
    followed; without one it is the default if both names are known, and otherwise no. Whether
    something is written tells whether such a write is there, the size is the number of pairs with
    one, and the list of all that is written holds each such pair once, its names in order, and the
    pairs in lexicographic order. -/
theorem tells_history (names : List String) (default : Bool) (actions : List Action) :
    (∀ a b, (after names default actions).get a b = (after names default actions).get b a) ∧
      (∀ a b v, IsLive names actions s(a, b) v → (after names default actions).get a b = v) ∧
      (∀ a b, (¬∃ v, IsLive names actions s(a, b) v) → Knows names actions a → Knows names actions b →
        (after names default actions).get a b = default) ∧
      (∀ a b, (¬∃ v, IsLive names actions s(a, b) v) → ¬(Knows names actions a ∧ Knows names actions b) →
        (after names default actions).get a b = false) ∧
      (∀ a b, (after names default actions).has a b = true ↔ ∃ v, IsLive names actions s(a, b) v) ∧
      {pair | ∃ v, IsLive names actions pair v}.encard = (after names default actions).size ∧
      (∀ a b v, ((a, b), v) ∈ (after names default actions).sorted ↔ a ≤ b ∧ IsLive names actions s(a, b) v) ∧
      (after names default actions).sorted.Pairwise fun e f => PairBefore e.1 f.1 := by
  have h := follows_after names default actions
  refine ⟨get_comm _, fun _ _ _ => h.get_of_isLive, fun _ _ => h.get_of_knows, fun _ _ => h.get_of_not_knows,
    h.has_iff, h.encard_eq, fun a b v => ?_, pairwise_sorted _⟩
  exact (List.mergeSort_perm ..).mem_iff.trans h.mem_entries_iff

end Clearance.AllowedCollisions
