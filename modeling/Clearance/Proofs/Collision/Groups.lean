import Clearance.Proofs.Collision.Serving

/-!
# Queries on more links

A query looks at the pairs of bodies in the order of the links of its group, and may stop early. In
exact arithmetic its verdict and the least distance do not depend on that order, and a query on more
links tells of a collision if one on fewer does, and of a least distance that is not greater.

* `PlacedPair.least_swap`, `Check.counts_swap`: a pair in the other order.
* `Check.Step`, `Check.Tells`: what a query does at a pair, and what it tells of all that it looked at.
* `Check.AtMost`, `Check.IsLeastOf`: least distances.
* `Check.Covered`: candidates all pairs of which are among others.
* `Checkers.grows_of_comes`: the queries of robot checkers that came about.
-/

namespace Clearance

variable {α : Type} [Scalar α]

/-! ## Pairs in the other order -/

namespace PlacedPair

/-- The least of the distances between two bodies. -/
def least (p : PlacedPair α) : Option α := Scalar.minimum (p.hits.map Hit.distance)

/-- The pair in the other order. -/
def swap (p : PlacedPair α) : PlacedPair α := ⟨p.second, p.first, p.secondContent, p.firstContent⟩

omit [Scalar α] in
theorem of_swap {a b : PlacedBody α} {p : PlacedPair α} (h : PlacedPair.of a b = .ok p) :
    PlacedPair.of b a = .ok p.swap := by
  obtain ⟨hfirst, hsecond, rfl, rfl⟩ := of_eq_ok.mp h
  exact of_eq_ok.mpr ⟨hsecond, hfirst, rfl, rfl⟩

/-- The distances are those of the samples of both bodies, whichever comes first. -/
theorem least_swap (p : PlacedPair ℝ) : p.swap.least = p.least := by
  refine Exact.minimum_congr fun d => ?_
  simp only [hits, List.map_append, distances_oriented, List.mem_append]
  exact Or.comm

theorem isFar_swap (p : PlacedPair ℝ) : p.swap.isFar = p.isFar := by
  have hmargin : p.swap.margin = p.margin := add_comm _ _
  have hgap : p.swap.gap = p.gap := gapBetween_comm _ _
  rw [isFar, isFar, hmargin, hgap]

end PlacedPair

namespace RobotChecker

theorem isForbidden_comm (allowed : Option AllowedCollisions) (a b : String) :
    isForbidden allowed a b = isForbidden allowed b a := by
  cases allowed with
  | none => rfl
  | some t => simp only [isForbidden, t.has_comm a b, t.get_comm a b]

theorem isAllowed_comm (allowed : Option AllowedCollisions) (a b : String) :
    isAllowed allowed a b = isAllowed allowed b a := by
  cases allowed with
  | none => rfl
  | some t => exact t.get_comm a b

omit [Scalar α] in
/-- Pairs are passed over in either order. -/
theorem skip?_comm (c : RobotChecker α) (allowed : Option AllowedCollisions) (a b : PlacedBody α) :
    c.skip? allowed a b = c.skip? allowed b a := by
  have hneighbour : c.isNeighbour a.name b.name = c.isNeighbour b.name a.name := by
    rw [isNeighbour, isNeighbour, pairKey_comm]
  unfold skip?
  rw [hneighbour, isForbidden_comm, isAllowed_comm, Bool.and_comm (isOwn a), Bool.or_comm (a.touch.contains b.name),
    Bool.and_right_comm _ (isAttached a)]
  by_cases hlink : a.link = b.link
  · rw [hlink]
  · have hlink' : ¬ b.link = a.link := fun h => hlink h.symm
    simp [hlink, hlink']

end RobotChecker

namespace Check

variable {request : CollisionRequest α}

theorem counts_swap (request : CollisionRequest ℝ) (p : PlacedPair ℝ) : counts request p.swap = counts request p := by
  unfold counts
  rw [p.isFar_swap, show Scalar.minimum (p.swap.hits.map Hit.distance) = _ from p.least_swap]
  rfl

/-- Whether the least distance is wanted is all that matters for what counts as a collision. -/
theorem counts_congr {request' : CollisionRequest α} (h : request.distance = request'.distance) (p : PlacedPair α) :
    counts request p = counts request' p := by rw [counts, counts, h]

/-! ## One pair -/

omit [Scalar α] in
theorem foldl_addContact_tells (key : String × String) (cs : List (Contact (Vec3 α) α)) (r : CollisionResult α) :
    (cs.foldl (fun r c => r.addContact key c) r).collision = r.collision ∧
      (cs.foldl (fun r c => r.addContact key c) r).distance = r.distance := by
  induction cs generalizing r with
  | nil => exact ⟨rfl, rfl⟩
  | cons c rest ih => exact ih (r.addContact key c)

/-- Recording a collision tells of it, and ends no query that has to look at all pairs. -/
theorem record_tells (request : CollisionRequest α) (r : CollisionResult α) (p : PlacedPair α) (hits : List (Hit α)) :
    (record request r p hits).1.collision = true ∧ (record request r p hits).1.distance = r.distance ∧
      ((record request r p hits).2 = .stop → request.exhaustive = false) := by
  have hended : (if request.exhaustive then .proceed else .stop : Next α) = .stop → request.exhaustive = false := by
    cases request.exhaustive with
    | false => exact fun _ => rfl
    | true => exact fun h => nomatch h
  unfold record
  dsimp only
  cases hcontacts : request.contacts with
  | false => exact ⟨rfl, rfl, hended⟩
  | true =>
    simp only [Bool.not_true, Bool.false_eq_true, if_false]
    split
    · exact ⟨rfl, rfl, fun h => nomatch h⟩
    · rename_i n _
      obtain ⟨hcollision, hdistance⟩ := foldl_addContact_tells p.key
        (((collidingHits hits).take n).map (contactAt p)) { r with collision := true }
      refine ⟨hcollision, hdistance, fun hstop => hended ?_⟩
      split at hstop
      · exact hstop
      · cases hstop

/-- What a query does at a pair, whatever its caps are: it fails if one of the bodies is released, passes
    over the pair if it does not count as a collision, and tells of the collision otherwise. -/
inductive Step (request : CollisionRequest α) (r : CollisionResult α) (a b : PlacedBody α) :
    CollisionResult α × List (Event α) × Next α → Prop where
  | released {f : Fault} : PlacedPair.of a b = .error f → Step request r a b (r, [], .fail (.fault f))
  | passed {p : PlacedPair α} : PlacedPair.of a b = .ok p → counts request p = false →
      Step request r a b (seen request r p, [], .proceed)
  | found {p : PlacedPair α} {r' : CollisionResult α} {more : List (Event α)} {next : Next α} :
      PlacedPair.of a b = .ok p → counts request p = true → r'.collision = true →
      r'.distance = (seen request r p).distance → (next = .stop → request.exhaustive = false) →
      Step request r a b (r', more, next)

theorem step_pair (request : CollisionRequest α) (r : CollisionResult α) (a b : PlacedBody α) :
    Step request r a b (pair request r a b) := by
  cases hp : PlacedPair.of a b with
  | error f =>
    have hpair : pair request r a b = (r, [], .fail (.fault f)) := by rw [pair, hp]
    exact hpair ▸ .released hp
  | ok p =>
    cases hcounts : counts request p with
    | false => exact pair_of_not_counts hp hcounts r ▸ .passed hp hcounts
    | true =>
      obtain ⟨hcollision, hdistance, hstop⟩ := record_tells request (seen request r p) p p.hits
      obtain ⟨more, hpair⟩ := pair_eq_record hp hcounts r
      exact hpair ▸ .found hp hcounts hcollision hdistance hstop

/-! ## All pairs -/

/-- What a query tells that has looked at these pairs. If it does not fail, these are all pairs of the
    candidates, unless it has told of a collision and need not be exhaustive. -/
structure Tells (request : CollisionRequest α) (candidates : List (Candidate α)) (r : CollisionResult α)
    (check : Check α) (looked : List (PlacedPair α)) : Prop where
  mem : ∀ p ∈ looked, ∃ a b, Candidate.pair a b ∈ candidates ∧ PlacedPair.of a b = .ok p
  collision : check.result.collision = true ↔ r.collision = true ∨ ∃ p ∈ looked, counts request p = true
  distance : request.distance = true →
    check.result.distance = looked.foldl (fun kept p => lesser kept p.least) r.distance
  all : check.failure = none → placedPairs candidates = .ok looked ∨
    check.result.collision = true ∧ request.exhaustive = false

variable {a b : PlacedBody α} {p : PlacedPair α} {rest : List (Candidate α)} {looked : List (PlacedPair α)}
  {r r' : CollisionResult α} {check : Check α}

theorem distance_seen (hdistance : request.distance = true) (r : CollisionResult α) (p : PlacedPair α) :
    (seen request r p).distance = lesser r.distance p.least := by
  rw [seen, if_pos hdistance]
  rfl

/-- A query that goes on after a pair has looked at it and at others. -/
theorem Tells.cons (hp : PlacedPair.of a b = .ok p)
    (hcollision : r'.collision = true ↔ r.collision = true ∨ counts request p = true)
    (hdistance : r'.distance = (seen request r p).distance) (h : Tells request rest r' check looked) :
    Tells request (.pair a b :: rest) r check (p :: looked) where
  mem := by
    intro q hq
    rcases List.mem_cons.mp hq with rfl | hq
    · exact ⟨a, b, List.mem_cons_self, hp⟩
    · obtain ⟨a', b', hab, hof⟩ := h.mem q hq
      exact ⟨a', b', List.mem_cons_of_mem _ hab, hof⟩
  collision := by rw [h.collision, hcollision, List.exists_mem_cons_iff, or_assoc]
  distance hd := by rw [h.distance hd, hdistance, distance_seen hd, List.foldl_cons]
  all hfailure := (h.all hfailure).imp
    (fun hrest => bind_eq_ok.mpr ⟨p, hp, bind_eq_ok.mpr ⟨looked, hrest, rfl⟩⟩) id

/-- A query that ends after a pair that counts as a collision. -/
theorem Tells.single (hp : PlacedPair.of a b = .ok p) (hcounts : counts request p = true)
    (hcollision : check.result.collision = true) (hdistance : check.result.distance = (seen request r p).distance)
    (hall : check.failure = none → request.exhaustive = false) (rest : List (Candidate α)) :
    Tells request (.pair a b :: rest) r check [p] where
  mem := by
    intro q hq
    obtain rfl := List.mem_singleton.mp hq
    exact ⟨a, b, List.mem_cons_self, hp⟩
  collision := ⟨fun _ => .inr ⟨p, List.mem_singleton_self p, hcounts⟩, fun _ => hcollision⟩
  distance hd := by rw [hdistance, distance_seen hd, List.foldl_cons, List.foldl_nil]
  all hfailure := .inr ⟨hcollision, hall hfailure⟩

/-- Every query tells what it has looked at. -/
theorem exists_tells (request : CollisionRequest α) (candidates : List (Candidate α)) (r : CollisionResult α)
    (events : Array (Event α)) : ∃ looked, Tells request candidates r (run request candidates r events) looked := by
  induction candidates generalizing r events with
  | nil => exact ⟨[], List.forall_mem_nil _, by simp [run], fun _ => rfl, fun _ => .inl rfl⟩
  | cons candidate rest ih =>
    cases candidate with
    | skipped first second why =>
      obtain ⟨looked, h⟩ := ih r (events.push (.pairSkipped first second why))
      refine ⟨looked, fun p hp => ?_, h.collision, h.distance, h.all⟩
      obtain ⟨a, b, hab, hof⟩ := h.mem p hp
      exact ⟨a, b, List.mem_cons_of_mem _ hab, hof⟩
    | pair a b =>
      have hstep := step_pair request r a b
      rw [run]
      generalize pair request r a b = next at hstep
      cases hstep with
      | released hf =>
        exact ⟨[], List.forall_mem_nil _, by simp, fun _ => rfl, fun h => absurd h (Option.some_ne_none _)⟩
      | @passed p hp hcounts =>
        obtain ⟨looked, h⟩ := ih (seen request r p) (events ++ ([] : List (Event α)).toArray)
        exact ⟨p :: looked, .cons hp (by simp [hcounts]) rfl h⟩
      | @found p r' more next hp hcounts hcollision hdistance hstop =>
        cases next with
        | proceed =>
          obtain ⟨looked, h⟩ := ih r' (events ++ more.toArray)
          exact ⟨p :: looked, .cons hp (by simp [hcollision, hcounts]) hdistance h⟩
        | stop => exact ⟨[p], .single hp hcounts hcollision hdistance (fun _ => hstop rfl) rest⟩
        | fail e => exact ⟨[p], .single hp hcounts hcollision hdistance
            (fun hfailure => absurd hfailure (Option.some_ne_none _)) rest⟩

/-! ## Least distances -/

/-- One least distance is at most another; an absent one is infinite. -/
def AtMost (d e : Option ℝ) : Prop := ∀ y, e = some y → ∃ x, d = some x ∧ x ≤ y

theorem AtMost.antisymm {d e : Option ℝ} (h : AtMost d e) (h' : AtMost e d) : d = e := by
  cases e with
  | none =>
    cases d with
    | none => rfl
    | some x =>
      obtain ⟨y, hy, -⟩ := h' x rfl
      cases hy
  | some y =>
    obtain ⟨x, rfl, hxy⟩ := h y rfl
    obtain ⟨_, ⟨⟩, hyx⟩ := h' x rfl
    exact congrArg some (le_antisymm hxy hyx)

theorem atMost_minimum {xs ys : List ℝ} (h : xs ⊆ ys) : AtMost (Scalar.minimum ys) (Scalar.minimum xs) := by
  intro m hm
  have hmem : m ∈ ys := h (Exact.minimum_eq_some_iff.mp hm).1
  obtain ⟨m', hm'⟩ := Exact.exists_minimum (List.ne_nil_of_mem hmem)
  exact ⟨m', hm', (Exact.minimum_eq_some_iff.mp hm').2 m hmem⟩

theorem lesser_some (a d : ℝ) : lesser (some a) (some d) = some (Scalar.min a d) := by
  rw [Exact.min_eq, min_comm, min_def_lt]
  simp only [lesser, Exact.lt_iff]

theorem lesser_none (d : Option ℝ) : lesser none d = d := by
  cases d with
  | none => rfl
  | some d => simp [lesser, Scalar.isBelowTop]

theorem foldl_lesser_some (a : ℝ) (pairs : List (PlacedPair ℝ)) :
    pairs.foldl (fun kept p => lesser kept p.least) (some a) =
      some ((pairs.filterMap PlacedPair.least).foldl Scalar.min a) := by
  induction pairs generalizing a with
  | nil => rfl
  | cons p rest ih =>
    rw [List.foldl_cons]
    cases hleast : p.least with
    | none =>
      rw [List.filterMap_cons_none hleast]
      exact ih a
    | some d =>
      rw [List.filterMap_cons_some hleast, lesser_some]
      exact ih _

/-- The least distance of some pairs is found by comparing their distances one after the other. -/
theorem foldl_lesser (pairs : List (PlacedPair ℝ)) :
    pairs.foldl (fun kept p => lesser kept p.least) none = Scalar.minimum (pairs.filterMap PlacedPair.least) := by
  induction pairs with
  | nil => rfl
  | cons p rest ih =>
    rw [List.foldl_cons, lesser_none]
    cases hleast : p.least with
    | none =>
      rw [List.filterMap_cons_none hleast]
      exact ih
    | some d =>
      rw [List.filterMap_cons_some hleast]
      exact foldl_lesser_some d rest

/-- What a query for the least distance tells of these pairs: the least of their distances, and a
    collision if it is not positive. -/
structure IsLeastOf (pairs : List (PlacedPair ℝ)) (result : CollisionResult ℝ) : Prop where
  distance : result.distance = Scalar.minimum (pairs.filterMap PlacedPair.least)
  collision : result.collision = true ↔ ∃ d, result.distance = some d ∧ d ≤ 0

theorem exists_isLeastOf {request : CollisionRequest ℝ} (hdistance : request.distance = true)
    {candidates : List (Candidate ℝ)} {events : Array (Event ℝ)}
    (hfailure : (run request candidates .empty events).failure = none) :
    ∃ pairs, placedPairs candidates = .ok pairs ∧ IsLeastOf pairs (run request candidates .empty events).result := by
  obtain ⟨pairs, h⟩ := exists_tells request candidates .empty events
  have hpairs : placedPairs candidates = .ok pairs := by
    refine (h.all hfailure).resolve_right fun ⟨_, hexhaustive⟩ => ?_
    rw [CollisionRequest.exhaustive, hdistance, Bool.or_true] at hexhaustive
    cases hexhaustive
  have hleast : (run request candidates .empty events).result.distance =
      Scalar.minimum (pairs.filterMap PlacedPair.least) := (h.distance hdistance).trans (foldl_lesser pairs)
  have hcounts : ∀ p, counts request p = collides p.least := by
    intro p
    rw [counts, hdistance]
    rfl
  refine ⟨pairs, hpairs, hleast, ?_⟩
  rw [h.collision, hleast, ← collides_iff, collides_minimum_iff]
  simp only [hcounts, collides_iff, List.mem_filterMap]
  constructor
  · rintro (htold | ⟨p, hp, d, hd, hle⟩)
    · cases htold
    · exact ⟨d, ⟨p, hp, hd⟩, hle⟩
  · rintro ⟨d, ⟨p, hp, hd⟩, hle⟩
    exact .inr ⟨p, hp, d, hd, hle⟩

/-! ## Candidates among others -/

/-- All pairs of some candidates are among others, in either order. -/
def Covered (few more : List (Candidate α)) : Prop :=
  ∀ a b, Candidate.pair a b ∈ few → Candidate.pair a b ∈ more ∨ Candidate.pair b a ∈ more

namespace Covered

variable {few more : List (Candidate ℝ)}

theorem intact (h : Covered few more) (hmore : Intact more) : Intact few := by
  intro a b hab
  rcases h a b hab with hab | hba
  · exact hmore a b hab
  · exact (hmore b a hba).symm

/-- What is looked at is among all pairs of the others, or is so in the other order. -/
theorem mem_or_swap (h : Covered few more) {pairs : List (PlacedPair ℝ)} (hpairs : placedPairs more = .ok pairs)
    {p : PlacedPair ℝ} (hp : ∃ a b, Candidate.pair a b ∈ few ∧ PlacedPair.of a b = .ok p) :
    p ∈ pairs ∨ p.swap ∈ pairs := by
  obtain ⟨a, b, hab, hof⟩ := hp
  rw [mem_placedPairs hpairs, mem_placedPairs hpairs]
  rcases h a b hab with hab | hba
  · exact .inl ⟨a, b, hab, hof⟩
  · exact .inr ⟨b, a, hba, PlacedPair.of_swap hof⟩

/-- A query on more pairs tells of the collisions that one on fewer pairs tells of. -/
theorem collision (h : Covered few more) {request request' : CollisionRequest ℝ}
    (hdistance : request.distance = request'.distance)
    (htold : (run request few .empty #[]).result.collision = true)
    (hfailure : (run request' more .empty #[]).failure = none) :
    (run request' more .empty #[]).result.collision = true := by
  obtain ⟨looked, hfew⟩ := exists_tells request few .empty #[]
  obtain ⟨looked', hmore⟩ := exists_tells request' more .empty #[]
  rcases hmore.all hfailure with hpairs | ⟨hcollision, -⟩
  · obtain hfresh | ⟨p, hp, hcounts⟩ := hfew.collision.mp htold
    · cases hfresh
    · rw [counts_congr hdistance] at hcounts
      refine hmore.collision.mpr (.inr ?_)
      rcases h.mem_or_swap hpairs (hfew.mem p hp) with hmem | hmem
      · exact ⟨p, hmem, hcounts⟩
      · exact ⟨p.swap, hmem, (counts_swap request' p).trans hcounts⟩
  · exact hcollision

/-- The least distance of more pairs is not greater. -/
theorem distance (h : Covered few more) (name name' : Option String)
    (hfailure : (run (.forDistance name') more .empty #[]).failure = none) :
    (run (.forDistance name) few .empty #[]).failure = none ∧
      AtMost (run (.forDistance name') more .empty #[]).result.distance
        (run (.forDistance name) few .empty #[]).result.distance := by
  obtain ⟨pairs', hpairs', hleast'⟩ := exists_isLeastOf rfl hfailure
  have hfew : (run (.forDistance name) few .empty #[]).failure = none :=
    (failure_run (h.intact (intact_of_placedPairs hpairs')) rfl (fun hcontacts => absurd hcontacts Bool.false_ne_true)
      .empty #[]).1
  obtain ⟨pairs, hpairs, hleast⟩ := exists_isLeastOf rfl hfew
  refine ⟨hfew, ?_⟩
  rw [hleast.distance, hleast'.distance]
  refine atMost_minimum fun d hd => ?_
  obtain ⟨p, hp, hd⟩ := List.mem_filterMap.mp hd
  rcases h.mem_or_swap hpairs' ((mem_placedPairs hpairs).mp hp) with hmem | hmem
  · exact List.mem_filterMap.mpr ⟨p, hmem, hd⟩
  · exact List.mem_filterMap.mpr ⟨p.swap, hmem, p.least_swap.trans hd⟩

end Covered

end Check

/-! ## Queries of robot checkers -/

open Check (AtMost Covered Intact IsLeastOf placedPairs)

/-- An accepted request on these links. -/
structure CollisionRequest.Asks (m : RobotModel α) (request : CollisionRequest α) (links : List String) : Prop where
  valid : request.validate = .ok ()
  group : RobotChecker.group m request.group = .ok links

theorem CollisionRequest.Asks.forDistance {m : RobotModel α} {request : CollisionRequest α} {links : List String}
    (h : request.Asks m links) : (CollisionRequest.forDistance request.group).Asks m links :=
  ⟨rfl, h.group⟩

omit [Scalar α] in
/-- The pairs of some bodies are among those of more bodies, in either order. -/
theorem RobotChecker.covered_candidates (c : RobotChecker α) (allowed : Option AllowedCollisions)
    {es es' : List (ℕ × PlacedBody α)} (hnodup : es.Nodup) (hsub : es ⊆ es') :
    Covered (c.candidates allowed (es.map Prod.snd)) (c.candidates allowed (es'.map Prod.snd)) := by
  intro a b hab
  obtain ⟨hpair, hskip⟩ := mem_candidates.mp hab
  rw [RobotModel.pairs_map] at hpair
  obtain ⟨⟨e, f⟩, hef, heq⟩ := List.mem_map.mp hpair
  cases heq
  obtain ⟨he, hf⟩ := RobotModel.mem_of_mem_pairs hef
  rw [mem_candidates, mem_candidates, RobotModel.pairs_map]
  rcases RobotModel.mem_pairs_or_swap (hsub he) (hsub hf) (RobotModel.nodup_iff_of_mem_pairs.mp hnodup e f hef)
    with h | h
  · exact .inl ⟨List.mem_map.mpr ⟨_, h, rfl⟩, hskip⟩
  · exact .inr ⟨List.mem_map.mpr ⟨_, h, rfl⟩, (c.skip?_comm allowed _ _).trans hskip⟩

namespace Checkers

variable {models : List (RobotModel ℝ)} {hand : List ℕ} {s : Checkers ℝ} {c : RobotChecker ℝ} {poses : LinkPoses ℝ}
  {links links' : List String}

/-- The candidates of a query on these links. -/
def candidatesOf (c : RobotChecker α) (inv : Inventory α) (poses : LinkPoses α) (allowed : Option AllowedCollisions)
    (links : List String) : List (Candidate α) :=
  c.candidates allowed ((c.marked inv poses links).map Prod.snd)

theorem Kept.covered (hs : s.Kept models hand) (hc : c ∈ s.robots) (hcan : c.CanPlace poses links)
    (hnodup : links.Nodup) (hsub : links ⊆ links') (allowed : Option AllowedCollisions) :
    Covered (candidatesOf c s.inventory poses allowed links) (candidatesOf c s.inventory poses allowed links') := by
  refine c.covered_candidates allowed (List.Nodup.of_map Prod.fst ?_) fun e he => ?_
  · rw [hs.places_marked hc hcan]
    exact (RobotChecker.nodup_bodies_iff (hs.heldBy hc) links).mpr (hnodup.filter _)
  · obtain ⟨link, hlink, hon⟩ := List.mem_flatMap.mp he
    exact List.mem_flatMap_of_mem (hsub hlink) hon

/-- Such a request is a run on the candidates of its links. -/
theorem check_eq_run {c : RobotChecker α} {inv : Inventory α} {m : RobotModel α} {poses : LinkPoses α}
    {request : CollisionRequest α} (h : request.Asks m links) (hcan : c.CanPlace poses links)
    (allowed : Option AllowedCollisions) (result : CollisionResult α) :
    c.check inv m poses allowed request result =
      Check.run request (candidatesOf c inv poses allowed links) result #[] := by
  rw [RobotChecker.check, requested_of_canPlace h.valid h.group hcan]
  rfl

/-- Whatever happened to the checkers before, in every state of the model and for every table of
    allowed collisions:

    * A query does not fail on bodies that nobody released by hand, unless it wants contacts and the cap
      on them is written with a fraction.
    * A query for the least distance that does not fail tells of the least of the distances of all
      pairs, and of a collision if and only if that distance is not positive.
    * If a query on some links tells of a collision, so does one on more links that does not fail; and
      the least distance on more links is not greater.
    * On the same links in another order, the verdicts and the least distances are the same. -/
theorem grows_of_comes {settings : Settings ℝ} (h : Comes settings models hand s) (i : ℕ) (c : RobotChecker ℝ)
    (hc : s.robots[i]? = some c) (made : RobotModel ℝ) (hmade : models[i]? = some made) (m : RobotModel ℝ)
    (hm : m.Grown) (hsame : m.links = made.links) (root : PoseSource ℝ) (past : List (RobotState.Action ℝ))
    (st : RobotState ℝ) (hst : RobotState.Run m root past st) (allowed : Option AllowedCollisions)
    (few more : CollisionRequest ℝ) (links links' : List String) (hfew : few.Asks m links)
    (hmore : more.Asks m links') (hdistance : few.distance = more.distance) (hnodup : links.Nodup)
    (hsub : links ⊆ links') :
    let check := fun request => c.check s.inventory m (st.linkPose m) allowed request .empty
    let distance := fun group => c.distance s.inventory m (st.linkPose m) allowed group
    (∀ request links, CollisionRequest.Asks m request links →
      ((request.contacts = true → ∀ x, request.maxContacts ≠ .real x) →
        (∀ link ∈ links, ∀ id ∈ c.bodiesOf link, id ∉ hand) → (check request).failure = none) ∧
      (request.distance = true → (check request).failure = none → ∃ bodies pairs,
        c.requested s.inventory m (st.linkPose m) request = .ok bodies ∧
        placedPairs (c.candidates allowed bodies) = .ok pairs ∧ IsLeastOf pairs (check request).result)) ∧
    ((check few).result.collision = true → (check more).failure = none → (check more).result.collision = true) ∧
    ((distance more.group).failure = none → (distance few.group).failure = none ∧
      AtMost (distance more.group).result.distance (distance few.group).result.distance) ∧
    (links.Perm links' →
      ((check few).failure = none → (check more).failure = none →
        (check few).result.collision = (check more).result.collision) ∧
      ((distance more.group).failure = none →
        (distance few.group).result.distance = (distance more.group).result.distance)) := by
  intro check distance
  have hs := kept_of_comes h
  have hmem : c ∈ s.robots := List.mem_of_getElem? hc
  -- Every query is a run on the candidates of its links, and what more links enumerate covers what
  -- fewer do; all four parts follow from these two facts.
  let candidates := candidatesOf c s.inventory (st.linkPose m) allowed
  have hcan : ∀ {request links}, CollisionRequest.Asks m request links → c.CanPlace (st.linkPose m) links :=
    fun hasks => hs.canPlace hc hmade hm hsame hst hasks.group
  have hcheck : ∀ {request links}, CollisionRequest.Asks m request links →
      check request = Check.run request (candidates links) .empty #[] :=
    fun hasks => check_eq_run hasks (hcan hasks) allowed .empty
  have hcovered : ∀ {links links' : List String} {request}, CollisionRequest.Asks m request links → links.Nodup →
      links ⊆ links' → Covered (candidates links) (candidates links') :=
    fun hasks hnodup hsub => hs.covered hmem (hcan hasks) hnodup hsub allowed
  have hgrows := hcovered hfew hnodup hsub
  have hleast := hgrows.distance few.group more.group
  have hfew' : distance few.group = _ := hcheck hfew.forDistance
  have hmore' : distance more.group = _ := hcheck hmore.forDistance
  rw [hcheck hfew, hcheck hmore, hfew', hmore']
  refine ⟨fun request links hasks => ⟨fun hreal hhand => ?_, fun hd hfailure => ?_⟩, ?_, hleast, fun hperm => ?_⟩
  · have hintact : Intact (candidates links) := RobotChecker.intact_candidates (hs.content_of_marked hmem hhand)
    rw [hcheck hasks]
    exact (Check.failure_run hintact hasks.valid hreal .empty #[]).1
  · rw [hcheck hasks] at hfailure ⊢
    obtain ⟨pairs, hpairs, hleast⟩ := Check.exists_isLeastOf hd hfailure
    exact ⟨_, pairs, requested_of_canPlace hasks.valid hasks.group (hcan hasks), hpairs, hleast⟩
  · exact hgrows.collision hdistance
  -- On the same links in another order each enumeration covers the other.
  · have hback := hcovered hmore (hperm.nodup hnodup) hperm.symm.subset
    refine ⟨fun hfailure hfailure' => ?_, fun hfailure => ?_⟩
    · exact Bool.eq_iff_iff.mpr ⟨fun htold => hgrows.collision hdistance htold hfailure',
        fun htold => hback.collision hdistance.symm htold hfailure⟩
    · obtain ⟨hfailure', hle⟩ := hleast hfailure
      exact ((hback.distance more.group few.group hfailure').2).antisymm hle

/-- The two cubes with a group of both in the other order. -/
noncomputable def turned : RobotModel ℝ := { cubes with groups := cubes.groups.set "turned" ["tool", "base"] }

/-- A request for a verdict on all links, and one for contacts of that group. -/
noncomputable def verdictOnAll : CollisionRequest ℝ := ⟨none, false, .int 1, .int 1, false, true⟩

noncomputable def contactsOfTurned : CollisionRequest ℝ := ⟨some "turned", true, .int 3, .int 2, true, true⟩

/-- The two cubes collide in either order, and are as far from each other. -/
theorem grows_of_comes_cubes : ∃ inv,
    let check := fun request => cubesChecker.check inv turned (cubesState.linkPose turned) none request .empty
    let distance := fun group => cubesChecker.distance inv turned (cubesState.linkPose turned) none group
    Comes .standard [cubes] [] ⟨inv, [cubesChecker], []⟩ ∧ turned.Grown ∧ turned.links = cubes.links ∧
    RobotState.Run turned .absent [] cubesState ∧ verdictOnAll.Asks turned ["base", "tool"] ∧
    contactsOfTurned.Asks turned ["tool", "base"] ∧ verdictOnAll.distance = contactsOfTurned.distance ∧
    ["base", "tool"].Nodup ∧ ["base", "tool"] ⊆ ["tool", "base"] ∧
    (check verdictOnAll).result.collision = true ∧ (check contactsOfTurned).result.collision = true ∧
    (distance none).result.distance = (distance (some "turned")).result.distance := by
  obtain ⟨base, tool, inside, outside, inv, hbase, htool, hbodies, hmake⟩ := exists_make_cubes
  have hcomes : Comes .standard [cubes] [] ⟨inv, [cubesChecker], []⟩ := ⟨_, recorded_cubes hmake⟩
  have hgroup : cubes.addGroup "turned" ["tool", "base"] = .ok turned := rfl
  have hgrown : turned.Grown := .addGroup grown_cubes hgroup
  have hrun : RobotState.Run turned .absent [] cubesState := .start atDefaults_cubes
  have hall : verdictOnAll.Asks turned ["base", "tool"] := ⟨rfl, rfl⟩
  have hturned : contactsOfTurned.Asks turned ["tool", "base"] := ⟨rfl, rfl⟩
  have hnodup : ["base", "tool"].Nodup := by simp
  have hperm : ["base", "tool"].Perm ["tool", "base"] := .swap _ _ _
  obtain ⟨heach, hcollision, -, hsame⟩ := grows_of_comes hcomes 0 cubesChecker rfl cubes rfl turned hgrown rfl
    .absent [] cubesState hrun none verdictOnAll contactsOfTurned _ _ hall hturned rfl hnodup hperm.subset
  have hserved : ∀ request links, CollisionRequest.Asks turned request links →
      (∀ x, request.maxContacts ≠ .real x) →
      (cubesChecker.check inv turned (cubesState.linkPose turned) none request .empty).failure = none :=
    fun request links hasks hreal => (heach request links hasks).1 (fun _ => hreal) (by simp)
  have hintAll := hserved _ _ hall (fun _ h => nomatch h)
  have hintTurned := hserved _ _ hturned (fun _ h => nomatch h)
  have htold : (cubesChecker.check inv turned (cubesState.linkPose turned) none verdictOnAll .empty).result.collision =
      true := by
    obtain ⟨bodies, pairs, hrequested, hpairs, hleast⟩ := (heach _ _ hall).2 rfl hintAll
    cases (requested_cubes hbase htool hbodies hall.valid hall.group).symm.trans hrequested
    have hpair : placedPairs (cubesChecker.candidates none [placedBase base, placedTool tool]) =
        .ok [cubesPair base tool inside outside] := bind_eq_ok.mpr ⟨_, of_cubes hbase htool, rfl⟩
    cases hpair.symm.trans hpairs
    obtain ⟨d, hd, hle⟩ := collides_iff.mp (collides_cubes hbase htool)
    have hd : (cubesPair base tool inside outside).least = some d := hd
    refine hleast.collision.mpr ⟨d, ?_, hle⟩
    rw [hleast.distance, List.filterMap_cons_some hd]
    rfl
  refine ⟨inv, hcomes, hgrown, rfl, hrun, hall, hturned, rfl, hnodup, hperm.subset, htold, ?_, ?_⟩
  · exact hcollision htold hintTurned
  · exact (hsame hperm).2 (hserved _ _ hturned.forDistance (fun _ h => nomatch h))

end Checkers

end Clearance
