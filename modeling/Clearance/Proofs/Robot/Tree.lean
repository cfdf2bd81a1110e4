import Mathlib.Combinatorics.SimpleGraph.Acyclic
import Mathlib.Combinatorics.SimpleGraph.Metric
import Clearance.Number.Float
import Clearance.Proofs.Outcomes
import Clearance.Proofs.Pairs
import Clearance.Proofs.Robot.Ancestry

/-!
# The tree of the links

The links of a grown model, each joined to its parent, are a tree. The number of joints between two
links, which is found by looking for the first common name on two ways up, is the length of the path
between them in this tree.

* `RobotModel.tree`: the links as a graph.
* `RobotModel.Ordered.isAcyclic_tree`, `RobotModel.Ordered.preconnected_tree`: it is a tree.
* `RobotModel.Ordered.exists_path`: two ways up are a path as far as they have not met.
* `RobotModel.Ordered.distance_eq`: the distance of links is that in the tree.
* `RobotModel.Ordered.adjacentPairs_eq`: the pairs of links within a bound.
* `RobotModel.Grown.isKinematicTree`: all of this for every history of additions.
-/

namespace Clearance.RobotModel

variable {α : Type} {m : RobotModel α}

/-- The links, each joined to its parent. -/
def tree (m : RobotModel α) : SimpleGraph {name // name ∈ m.linkNames} :=
  .fromRel fun a b => m.parentOf a = some b.1

/-! ## The graph is a tree -/

theorem Ordered.ne_of_parentOf (hm : m.Ordered) {name above : String} (h : m.parentOf name = some above) :
    name ≠ above := by
  rintro rfl
  exact (hm.parent_before h).false

theorem Ordered.adj_iff (hm : m.Ordered) {a b : {name // name ∈ m.linkNames}} :
    m.tree.Adj a b ↔ m.parentOf a = some b.1 ∨ m.parentOf b = some a.1 := by
  rw [tree, SimpleGraph.fromRel_adj, and_iff_right_iff_imp]
  rintro (h | h) rfl <;> exact hm.ne_of_parentOf h rfl

/-- Without the joint on which a link hangs, a neighbour of a link below it is below it as well. -/
theorem Ordered.mem_ancestors_of_adj (hm : m.Ordered) {v w x y : {name // name ∈ m.linkNames}}
    (hvw : m.parentOf v = some w.1) (hxy : (m.tree.deleteEdges {s(v, w)}).Adj x y)
    (hx : v.1 ∈ m.ancestors x) : v.1 ∈ m.ancestors y := by
  obtain ⟨hadj, hne⟩ := SimpleGraph.deleteEdges_adj.mp hxy
  rcases hm.adj_iff.mp hadj with h | h
  · rw [hm.ancestors_of_parent h] at hx
    rcases List.mem_cons.mp hx with hvx | hx
    · -- the deleted joint is the only one on which `v` hangs
      have hvx : v = x := Subtype.ext hvx
      subst hvx
      have hwy : w = y := Subtype.ext (Option.some.inj (hvw.symm.trans h))
      subst hwy
      exact absurd rfl hne
    · exact hx
  · rw [hm.ancestors_of_parent h]
    exact List.mem_cons_of_mem _ hx

theorem Ordered.not_mem_ancestors (hm : m.Ordered) {name above : String} (h : m.parentOf name = some above) :
    name ∉ m.ancestors above := by
  have hnodup := ((hm.wayUp_ancestors (mem_linkNames_of_parentOf h)).sorted hm).2
  rw [hm.ancestors_of_parent h] at hnodup
  exact (List.nodup_cons.mp hnodup).1

/-- Each joint is a bridge: without it the links below it are cut off. -/
theorem Ordered.isBridge (hm : m.Ordered) {v w : {name // name ∈ m.linkNames}} (h : m.parentOf v = some w.1) :
    m.tree.IsBridge s(v, w) := by
  rw [SimpleGraph.isBridge_iff]
  rintro ⟨walk⟩
  have hbelow : ∀ {x y : {name // name ∈ m.linkNames}}, (m.tree.deleteEdges {s(v, w)}).Walk x y →
      v.1 ∈ m.ancestors x → v.1 ∈ m.ancestors y := by
    intro x y walk
    induction walk with
    | nil => exact id
    | cons hadj _ ih => exact fun hx => ih (hm.mem_ancestors_of_adj h hadj hx)
  exact hm.not_mem_ancestors h (hbelow walk (hm.wayUp_ancestors v.2).mem_self)

theorem Ordered.isAcyclic_tree (hm : m.Ordered) : m.tree.IsAcyclic := by
  rw [SimpleGraph.isAcyclic_iff_forall_adj_isBridge]
  intro v w hvw
  rcases hm.adj_iff.mp hvw with h | h
  · exact hm.isBridge h
  · rw [Sym2.eq_swap]
    exact hm.isBridge h

/-- A link on the way up is reached through those before it. -/
theorem WayUp.exists_walk {name : String} {way : List String} (h : m.WayUp name way) (hm : m.Ordered)
    (hname : name ∈ m.linkNames) {c : {name // name ∈ m.linkNames}} (hc : c.1 ∈ way) :
    ∃ p : m.tree.Walk ⟨name, hname⟩ c, p.support.map Subtype.val = way.take (way.idxOf c.1 + 1) := by
  induction h with
  | @root name _ =>
    obtain rfl : c = ⟨name, hname⟩ := Subtype.ext (List.mem_singleton.mp hc)
    exact ⟨.nil, by simp⟩
  | @up name above way habove _ ih =>
    by_cases heq : c.1 = name
    · obtain rfl : c = ⟨name, hname⟩ := Subtype.ext heq
      exact ⟨.nil, by simp⟩
    · have hmem := hm.parent_mem habove
      obtain ⟨p, hp⟩ := ih hmem ((List.mem_cons.mp hc).resolve_left heq)
      have hadj : m.tree.Adj ⟨name, hname⟩ ⟨above, hmem⟩ := hm.adj_iff.mpr (.inl habove)
      refine ⟨.cons hadj p, ?_⟩
      rw [SimpleGraph.Walk.support_cons, List.map_cons, hp, List.idxOf_cons_ne _ (Ne.symm heq), List.take_succ_cons]

/-- A walk that meets the names of a list up to one is as long as the place of that one. -/
theorem length_of_support {way : List String} {a c : {name // name ∈ m.linkNames}} {p : m.tree.Walk a c}
    (hc : c.1 ∈ way) (hp : p.support.map Subtype.val = way.take (way.idxOf c.1 + 1)) :
    p.length = way.idxOf c.1 := by
  have hlength := congrArg List.length hp
  have hlt := List.idxOf_lt_length_of_mem hc
  rw [List.length_map, SimpleGraph.Walk.length_support, List.length_take] at hlength
  omega

theorem Ordered.preconnected_tree (hm : m.Ordered) : m.tree.Preconnected := by
  intro a b
  -- both reach the first link
  obtain ⟨first, hfirst⟩ : ∃ first, m.linkNames.head? = some first :=
    ⟨_, List.head?_eq_some_head (List.ne_nil_of_mem a.2)⟩
  have hmem : first ∈ m.linkNames := List.mem_of_head? hfirst
  have hreach : ∀ x : {name // name ∈ m.linkNames}, m.tree.Reachable x ⟨first, hmem⟩ := by
    intro x
    have hway := hm.wayUp_ancestors x.2
    obtain ⟨p, -⟩ := hway.exists_walk hm x.2 (c := ⟨first, hmem⟩) (hway.mem_first hm x.2 hfirst)
    exact ⟨p⟩
  exact (hreach a).trans (hreach b).symm

/-! ## Distances -/

/-- Two lists with a common name meet in one that none on the second comes before. -/
theorem exists_meeting {first second : List String} {x : String} (hx : x ∈ first) (hx' : x ∈ second) :
    ∃ c ∈ first, c ∈ second ∧ (∀ y ∈ second.take (second.idxOf c), y ∉ first) ∧
      meeting first second = some (first.idxOf c + second.idxOf c) := by
  have hsome : (meeting first second).isSome := by
    rw [meeting, List.findSome?_isSome_iff]
    exact ⟨x, hx', by rw [if_pos (List.contains_iff_mem.mpr hx)]; rfl⟩
  obtain ⟨n, hn⟩ := Option.isSome_iff_exists.mp hsome
  rw [meeting, List.findSome?_eq_some_iff] at hn
  obtain ⟨before, c, after, hsecond, hc, hbefore⟩ := hn
  have hfree : ∀ y ∈ before, y ∉ first := by simpa using hbefore
  have hmem : c ∈ first := by
    by_contra hnot
    rw [if_neg (by simpa using hnot)] at hc
    cases hc
  have hidx : second.idxOf c = before.length := by
    rw [hsecond, List.idxOf_append, if_neg fun h => hfree c h hmem, List.idxOf_cons_self, Nat.zero_add]
  refine ⟨c, hmem, by simp [hsecond], ?_, ?_⟩
  · rw [hidx, hsecond, List.take_left]
    exact hfree
  · rw [meeting, List.findSome?_eq_some_iff]
    refine ⟨before, c, after, hsecond, ?_, hbefore⟩
    rw [if_pos (List.contains_iff_mem.mpr hmem)]

/-- The ways up from two links to the first common name are a path between them, and the distance of
    the links is its length. -/
theorem Ordered.exists_path (hm : m.Ordered) (a b : {name // name ∈ m.linkNames}) :
    ∃ p : m.tree.Walk a b, p.IsPath ∧ m.distance a b = .ok (some p.length) := by
  have hwayA := hm.wayUp_ancestors a.2
  have hwayB := hm.wayUp_ancestors b.2
  obtain ⟨first, hfirst⟩ : ∃ first, m.linkNames.head? = some first :=
    ⟨_, List.head?_eq_some_head (List.ne_nil_of_mem a.2)⟩
  obtain ⟨c, hcA, hcB, hfree, hmeet⟩ :=
    exists_meeting (hwayA.mem_first hm a.2 hfirst) (hwayB.mem_first hm b.2 hfirst)
  have hc : c ∈ m.linkNames := hwayA.subset hm a.2 hcA
  obtain ⟨p, hp⟩ : ∃ p : m.tree.Walk a ⟨c, hc⟩, p.support.map Subtype.val =
      (m.ancestors a).take ((m.ancestors a).idxOf c + 1) := hwayA.exists_walk hm a.2 hcA
  obtain ⟨q, hq⟩ : ∃ q : m.tree.Walk b ⟨c, hc⟩, q.support.map Subtype.val =
      (m.ancestors b).take ((m.ancestors b).idxOf c + 1) := hwayB.exists_walk hm b.2 hcB
  have hpLength : p.length = (m.ancestors a).idxOf c := length_of_support hcA hp
  have hqLength : q.length = (m.ancestors b).idxOf c := length_of_support hcB hq
  -- down to `b` only names are met that are not above `a`
  have hpath : (q.append p.reverse).IsPath := by
    rw [SimpleGraph.Walk.isPath_def, SimpleGraph.Walk.support_append_eq_support_dropLast_append,
      SimpleGraph.Walk.support_reverse, List.nodup_append]
    have hdown : q.support.dropLast.map Subtype.val = (m.ancestors b).take ((m.ancestors b).idxOf c) := by
      have hlt := List.idxOf_lt_length_of_mem hcB
      rw [List.map_dropLast, hq, List.dropLast_eq_take, List.length_take, List.take_take]
      congr 1
      omega
    refine ⟨.of_map _ (hdown ▸ (hwayB.sorted hm).2.sublist (List.take_sublist _ _)),
      List.nodup_reverse.mpr (.of_map _ (hp ▸ (hwayA.sorted hm).2.sublist (List.take_sublist _ _))), ?_⟩
    rintro x hx y hy rfl
    have hxB : x.1 ∈ q.support.dropLast.map Subtype.val := List.mem_map_of_mem hx
    have hxA : x.1 ∈ p.support.map Subtype.val := List.mem_map_of_mem (List.mem_reverse.mp hy)
    rw [hdown] at hxB
    rw [hp] at hxA
    exact hfree _ hxB (List.mem_of_mem_take hxA)
  refine ⟨(q.append p.reverse).reverse, hpath.reverse, ?_⟩
  obtain ⟨la, hla⟩ := mem_linkNames_iff.mp a.2
  obtain ⟨lb, hlb⟩ := mem_linkNames_iff.mp b.2
  simp only [distance, link, hla, hlb, hmeet, SimpleGraph.Walk.length_reverse, SimpleGraph.Walk.length_append,
    hpLength, hqLength, Nat.add_comm]
  rfl

/-- The distance of two links is the length of the path between them. -/
theorem Ordered.distance_eq (hm : m.Ordered) (a b : {name // name ∈ m.linkNames}) :
    m.distance a b = .ok (some (m.tree.dist a b)) := by
  obtain ⟨p, hp, hdistance⟩ := hm.exists_path a b
  obtain ⟨q, hq, hlength⟩ := (hm.preconnected_tree a b).exists_path_of_dist
  have heq : (⟨p, hp⟩ : m.tree.Path a b) = ⟨q, hq⟩ := (hm.isAcyclic_tree.subsingleton_path a b).elim _ _
  obtain rfl : p = q := congrArg Subtype.val heq
  rw [hdistance, hlength]

/-! ## Pairs of links within a bound -/

/-- The pairs of links by the order of the links, each with its names in order, that are a positive
    number of joints apart of which a test holds. -/
noncomputable def near (m : RobotModel α) (below : ℕ → Bool) : List (String × String) :=
  ((pairs m.linkNames.attach).filter fun e => 0 < m.tree.dist e.1 e.2 && below (m.tree.dist e.1 e.2)).map
    fun e => pairKey e.1 e.2

theorem pairs_linkNames (m : RobotModel α) :
    pairs m.linkNames = (pairs m.linkNames.attach).map fun e => (e.1.1, e.2.1) := by
  rw [← pairs_map, List.attach_map_subtype_val]

theorem nodup_attach_linkNames (m : RobotModel α) : m.linkNames.attach.Nodup :=
  List.nodup_attach.mpr m.links.nodup_keys

/-- Two links are listed if they are so far apart. -/
theorem mem_near_iff {below : ℕ → Bool} {a b : {name // name ∈ m.linkNames}} :
    pairKey a b ∈ m.near below ↔ 0 < m.tree.dist a b ∧ below (m.tree.dist a b) = true := by
  simp only [near, List.mem_map, List.mem_filter, Bool.and_eq_true, decide_eq_true_eq]
  constructor
  · rintro ⟨⟨c, d⟩, ⟨-, h⟩, hkey⟩
    rcases (pairKey_eq_iff ..).mp hkey with ⟨hc, hd⟩ | ⟨hc, hd⟩
    · rwa [Subtype.ext hc, Subtype.ext hd] at h
    · rwa [Subtype.ext hc, Subtype.ext hd, SimpleGraph.dist_comm] at h
  · intro h
    have hne : a ≠ b := by
      rintro rfl
      exact (SimpleGraph.dist_self (G := m.tree) ▸ h.1).false
    rcases mem_pairs_or_swap (List.mem_attach _ a) (List.mem_attach _ b) hne with hab | hba
    · exact ⟨(a, b), ⟨hab, h⟩, rfl⟩
    · exact ⟨(b, a), ⟨hba, SimpleGraph.dist_comm (G := m.tree) ▸ h⟩, pairKey_comm ..⟩

/-- No two links are listed twice. -/
theorem nodup_near (m : RobotModel α) (below : ℕ → Bool) : (m.near below).Nodup := by
  have hnodup := m.nodup_attach_linkNames
  refine ((nodup_pairs hnodup).filter _).map_on ?_
  rintro ⟨a, b⟩ hab ⟨c, d⟩ hcd hkey
  have hab := (List.mem_filter.mp hab).1
  have hcd := (List.mem_filter.mp hcd).1
  rcases (pairKey_eq_iff ..).mp hkey with ⟨hac, hbd⟩ | ⟨had, hbc⟩
  · obtain rfl : a = c := Subtype.ext hac
    obtain rfl : b = d := Subtype.ext hbd
    rfl
  · obtain rfl : a = d := Subtype.ext had
    obtain rfl : b = c := Subtype.ext hbc
    exact absurd hab (not_mem_pairs_swap hnodup hcd)

/-- Less than two joints apart are a link and its parent, which comes first. -/
theorem Ordered.near_two (hm : m.Ordered) :
    m.near (· < 2) = ((pairs m.linkNames).filter fun e => m.parentOf e.2 = some e.1).map fun e => pairKey e.1 e.2 := by
  rw [pairs_linkNames, List.filter_map, List.map_map, near]
  refine congrArg (List.map _) (List.filter_congr ?_)
  rintro ⟨a, b⟩ hab
  have hadj : 0 < m.tree.dist a b ∧ m.tree.dist a b < 2 ↔ m.tree.Adj a b := by
    rw [← SimpleGraph.dist_eq_one_iff_adj]
    omega
  rw [Function.comp_apply, Bool.eq_iff_iff, Bool.and_eq_true, decide_eq_true_iff, decide_eq_true_iff,
    decide_eq_true_iff, hadj, hm.adj_iff, or_iff_right_iff_imp]
  intro hparent
  -- the later link of a pair is not the parent
  have hpair : (a.1, b.1) ∈ pairs m.linkNames := by
    rw [pairs_linkNames]
    exact List.mem_map_of_mem hab
  have hlt := idxOf_lt_of_mem_pairs m.links.nodup_keys hpair
  exact absurd (hm.parent_before hparent) (Nat.lt_asymm hlt)

variable [Scalar α]

theorem isNear_some {bound : Given α} {below : ℕ → Bool} (h : ∀ n, isBelow bound n = .ok (below n)) (n : ℕ) :
    isNear bound (some n) = .ok (decide (0 < n) && below n) := by
  cases n with
  | zero => rfl
  | succ n => exact (h (n + 1)).trans (by simp)

/-- The adjacent pairs are those of links whose path has a positive length below the bound. -/
theorem Ordered.adjacentPairs_eq (hm : m.Ordered) {bound : Given α} {below : ℕ → Bool}
    (h : ∀ n, isBelow bound n = .ok (below n)) : m.adjacentPairs bound = .ok (m.near below) := by
  have htest : ∀ e ∈ pairs m.linkNames,
      (do let d ← m.distance e.1 e.2; Fault.lift (isNear bound d) : Except (Error α) Bool) =
        .ok ((m.distance e.1 e.2).toOption.join.any fun n => decide (0 < n) && below n) := by
    rintro ⟨a, b⟩ he
    obtain ⟨ha, hb⟩ := mem_of_mem_pairs he
    have hdistance := hm.distance_eq ⟨a, ha⟩ ⟨b, hb⟩
    refine bind_eq_ok.mpr ⟨_, hdistance, Fault.lift_eq_ok.mpr ?_⟩
    rw [isNear_some h, hdistance]
    rfl
  refine bind_eq_ok.mpr ⟨_, filterM_eq_ok htest, ?_⟩
  rw [pairs_linkNames, List.filter_map, List.map_map]
  refine congrArg (fun l => Except.ok (List.map _ l)) (List.filter_congr fun e _ => ?_)
  rw [Function.comp_apply, hm.distance_eq]
  rfl

/-! ## Grown models -/

/-- The links are one tree, hanging by the joints, in which distances are lengths of paths. -/
structure IsKinematicTree (m : RobotModel α) : Prop where
  /-- Parents come first, and only the first link has none. -/
  ordered : m.Ordered
  /-- Each link but the root hangs by a joint of its own, and there are no other joints. -/
  joined : m.Joined
  isTree : m.linkNames ≠ [] → m.tree.IsTree
  /-- The way along the parents ends, and the ancestors are what it meets. -/
  wayUp_ancestors : ∀ name ∈ m.linkNames, m.WayUp name (m.ancestors name)
  /-- The distance of two links is the length of the only path between them. -/
  distance_path : ∀ a b : {name // name ∈ m.linkNames}, ∃ p : m.tree.Path a b,
    (∀ q : m.tree.Path a b, q = p) ∧ m.distance a b = .ok (some p.1.length)
  distance_eq_zero : ∀ a b : {name // name ∈ m.linkNames}, m.distance a b = .ok (some 0) ↔ a = b
  distance_comm : ∀ a b : {name // name ∈ m.linkNames}, m.distance a b = m.distance b a
  distance_triangle : ∀ (a b c : {name // name ∈ m.linkNames}) (x y z : ℕ), m.distance a b = .ok (some x) →
    m.distance b c = .ok (some y) → m.distance a c = .ok (some z) → z ≤ x + y
  /-- An integer bounds the distances of adjacent links as it is. -/
  adjacentPairs_int : ∀ (bound : Given α) (limit : ℤ), bound.int? = some limit →
    m.adjacentPairs bound = .ok (m.near fun n => (n : ℤ) < limit)
  adjacentPairs_real : ∀ x : α, m.adjacentPairs (.real x) = .ok (m.near fun n => Scalar.lt (Scalar.ofInt (n : ℤ)) x)
  /-- The pairs so listed are all that are so far apart, whichever link is named first. -/
  mem_near : ∀ (below : ℕ → Bool) (a b : {name // name ∈ m.linkNames}),
    pairKey a b ∈ m.near below ↔ 0 < m.tree.dist a b ∧ below (m.tree.dist a b) = true
  nodup_near : ∀ below : ℕ → Bool, (m.near below).Nodup
  /-- Less than two joints apart are the links and their parents. -/
  adjacentPairs_two : m.adjacentPairs (.int 2) =
    .ok (((pairs m.linkNames).filter fun e => m.parentOf e.2 = some e.1).map fun e => pairKey e.1 e.2)

/-- Whatever links were added, in vain or not, they are a tree, and distances are lengths of paths. -/
theorem Grown.isKinematicTree {m : RobotModel α} (hm : m.Grown) : m.IsKinematicTree := by
  have ho := hm.ordered
  refine
    { ordered := ho
      joined := hm.joined
      isTree := fun hne => ?_
      wayUp_ancestors := fun name hname => ho.wayUp_ancestors hname
      distance_path := fun a b => ?_
      distance_eq_zero := fun a b => ?_
      distance_comm := fun a b => by rw [ho.distance_eq, ho.distance_eq, SimpleGraph.dist_comm]
      distance_triangle := fun a b c x y z hx hy hz => ?_
      adjacentPairs_int := fun bound limit hbound => ho.adjacentPairs_eq fun n => by rw [isBelow, hbound]
      adjacentPairs_real := fun x => ho.adjacentPairs_eq fun n => rfl
      mem_near := fun below a b => mem_near_iff
      nodup_near := m.nodup_near
      adjacentPairs_two := ?_ }
  · obtain ⟨first, hfirst⟩ := List.exists_mem_of_ne_nil _ hne
    have : Nonempty {name // name ∈ m.linkNames} := ⟨⟨first, hfirst⟩⟩
    exact ⟨⟨ho.preconnected_tree⟩, ho.isAcyclic_tree⟩
  · obtain ⟨p, hp, hdistance⟩ := ho.exists_path a b
    exact ⟨⟨p, hp⟩, fun q => (ho.isAcyclic_tree.subsingleton_path a b).elim _ _, hdistance⟩
  · rw [ho.distance_eq, Except.ok.injEq, Option.some.injEq]
    exact (ho.preconnected_tree a b).dist_eq_zero_iff
  · rw [ho.distance_eq] at hx hy hz
    cases hx
    cases hy
    cases hz
    exact (ho.preconnected_tree a b).dist_triangle_left c
  · rw [← ho.near_two]
    refine ho.adjacentPairs_eq fun n => ?_
    change Except.ok (decide ((n : ℤ) < 2)) = .ok (decide (n < 2))
    congr 2
    exact propext (by omega)

/-- A stem with two links on it, and an addition of a link that is there already. -/
def forked : RobotModel α :=
  let add (m : RobotModel α) (name : String) (parent : Option String) : RobotModel α :=
    (m.addLink ⟨name, parent, none, none, [], none⟩).model
  add (add (add (add (.empty .plain (some "fork")) "stem" none) "left" (some "stem")) "right" (some "stem"))
    "right" (some "left")

/-- The links on the stem are two joints apart, since the second addition of one was refused, and
    each of them is adjacent to the stem. -/
theorem isKinematicTree_forked :
    (forked : RobotModel Float).Grown ∧ (forked : RobotModel Float).IsKinematicTree ∧
      (forked : RobotModel Float).distance "left" "right" = .ok (some 2) ∧
      (forked : RobotModel Float).adjacentPairs (.int 2) = .ok [("left", "stem"), ("right", "stem")] := by
  have hgrown : (forked : RobotModel Float).Grown :=
    .addLink _ (.addLink _ (.addLink _ (.addLink _ (.empty _ _))))
  have htree := hgrown.isKinematicTree
  refine ⟨hgrown, htree, by cbv, ?_⟩
  rw [htree.adjacentPairs_two]
  cbv

end Clearance.RobotModel
