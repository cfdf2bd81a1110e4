import Clearance.Proofs.Pairs
import Clearance.Collision.World

/-!
# Writing what may collide

A query passes over a pair of bodies for one of four reasons, and what is written for the names of
the pair takes part in two of them. Writing for two names settles these two for every pair of bodies
with the names and leaves all other pairs alone.

* `AllowedCollisions.get_set`, `AllowedCollisions.has_set`: what is read after writing.
* `lookedAt`: the pairs of bodies that a query looks at, in their order.
* `RobotChecker.isNone_skip?_set`, `WorldChecker.isNone_skip?_set`: whether a pair of bodies is
  looked at after writing.
* `lookedAt_set`: all pairs that a query looks at after writing.
-/

namespace Clearance

/-! ## Reading after writing -/

namespace AllowedCollisions

/-- What is read after writing for two names is what was written, for these names in either order,
    and what was read before for all others. -/
theorem get_set (m : AllowedCollisions) (x y : String) (allowed : Bool) (a b : String) :
    (m.set x y allowed).get a b = if pairKey x y = pairKey a b then allowed else m.get a b := by
  unfold get set
  rw [Table.find?_set]
  by_cases h : pairKey x y = pairKey a b
  · rw [if_pos h, if_pos h]
  · rw [if_neg h, if_neg h]

theorem has_set (m : AllowedCollisions) (x y : String) (allowed : Bool) (a b : String) :
    (m.set x y allowed).has a b = (decide (pairKey x y = pairKey a b) || m.has a b) := by
  unfold has set Table.contains
  rw [Table.find?_set]
  by_cases h : pairKey x y = pairKey a b
  · simp [h]
  · simp [h]

end AllowedCollisions

variable {α : Type}

/-! ## Pairs that are looked at -/

/-- The pair of bodies of a candidate, unless it is passed over. -/
def Candidate.looked? : Candidate α → Option (PlacedBody α × PlacedBody α)
  | .pair a b => some (a, b)
  | .skipped _ _ _ => none

/-- The pairs of bodies that a query looks at, in their order. -/
def lookedAt (candidates : List (Candidate α)) : List (PlacedBody α × PlacedBody α) :=
  candidates.filterMap Candidate.looked?

/-- Whether the bodies of a pair have these two names, in whichever order. -/
def isNamed (x y : String) (e : PlacedBody α × PlacedBody α) : Bool :=
  (e.1.name == x && e.2.name == y) || (e.1.name == y && e.2.name == x)

theorem isNamed_iff (x y : String) (e : PlacedBody α × PlacedBody α) :
    isNamed x y e = true ↔ pairKey x y = pairKey e.1.name e.2.name := by
  rw [pairKey_eq_iff]
  simp only [isNamed, Bool.or_eq_true, Bool.and_eq_true, beq_iff_eq]
  constructor
  · rintro (⟨h, h'⟩ | ⟨h, h'⟩)
    · exact .inl ⟨h.symm, h'.symm⟩
    · exact .inr ⟨h'.symm, h.symm⟩
  · rintro (⟨h, h'⟩ | ⟨h, h'⟩)
    · exact .inl ⟨h.symm, h'.symm⟩
    · exact .inr ⟨h'.symm, h.symm⟩

/-- Whether two bodies are attached to one link. -/
def areAttachedTogether (e : PlacedBody α × PlacedBody α) : Bool :=
  decide (e.1.link = e.2.link) && RobotChecker.isAttached e.1 && RobotChecker.isAttached e.2

/-- Whether one of two bodies may touch the other. -/
def mayTouch (e : PlacedBody α × PlacedBody α) : Bool :=
  e.1.touch.contains e.2.name || e.2.touch.contains e.1.name

/-- A candidate for each of some pairs, passed over where there is a reason. -/
theorem lookedAt_map (candidate : PlacedBody α × PlacedBody α → Candidate α)
    (skip : PlacedBody α × PlacedBody α → Option Skip)
    (h : ∀ e, candidate e = match skip e with
      | some why => .skipped e.1.name e.2.name why
      | none => .pair e.1 e.2)
    (es : List (PlacedBody α × PlacedBody α)) :
    lookedAt (es.map candidate) = es.filter fun e => (skip e).isNone := by
  induction es with
  | nil => rfl
  | cons e rest ih =>
    unfold lookedAt at ih ⊢
    rw [List.map_cons, List.filter_cons]
    cases hskip : skip e with
    | none =>
      rw [List.filterMap_cons_some (by rw [h, hskip]; rfl), ih]
      rfl
    | some why =>
      rw [List.filterMap_cons_none (by rw [h, hskip]; rfl), ih]
      rfl

/-- There is no reason if the first does not hold and there is no other. -/
theorem isNone_ite (p : Prop) [Decidable p] (why : Skip) (others : Option Skip) :
    (if p then some why else others).isNone = (!decide p && others.isNone) := by
  by_cases h : p
  · simp [h]
  · simp [h]

namespace RobotChecker

/-- A query on a robot looks at the pairs that there is no reason to pass over. -/
theorem lookedAt_candidates (c : RobotChecker α) (allowed : Option AllowedCollisions)
    (bodies : List (PlacedBody α)) :
    lookedAt (c.candidates allowed bodies) =
      (RobotModel.pairs bodies).filter fun e => (c.skip? allowed e.1 e.2).isNone :=
  lookedAt_map _ _ (fun _ => rfl) _

/-- The four reasons for which two bodies of a robot are passed over. -/
theorem isNone_skip? (c : RobotChecker α) (allowed : Option AllowedCollisions)
    (e : PlacedBody α × PlacedBody α) :
    (c.skip? allowed e.1 e.2).isNone =
      (!areAttachedTogether e &&
        !(isOwn e.1 && isOwn e.2 && c.isNeighbour e.1.name e.2.name &&
          !isForbidden allowed e.1.name e.2.name) &&
        !isAllowed allowed e.1.name e.2.name && !mayTouch e) := by
  unfold skip? areAttachedTogether mayTouch
  simp only [isNone_ite, Option.isNone_none, Bool.decide_eq_true, Bool.and_true, Bool.and_assoc]

/-- After writing for two names, a pair with the names is looked at if it may not collide, unless it
    is attached to one link or may touch; that the two are neighbours does not matter any more. All
    other pairs are treated as before. -/
theorem isNone_skip?_set (c : RobotChecker α) (m : AllowedCollisions) (x y : String)
    (allowed : Bool) (e : PlacedBody α × PlacedBody α) :
    (c.skip? (some (m.set x y allowed)) e.1 e.2).isNone =
      if isNamed x y e then !allowed && (!areAttachedTogether e && !mayTouch e)
      else (c.skip? (some m) e.1 e.2).isNone := by
  rw [isNone_skip?, isNone_skip?]
  simp only [isForbidden, isAllowed, AllowedCollisions.get_set, AllowedCollisions.has_set,
    ← isNamed_iff]
  cases isNamed x y e with
  | false => simp
  | true => cases allowed <;> simp

end RobotChecker

namespace WorldChecker

/-- A query on a robot and obstacles looks at the pairs that there is no reason to pass over. -/
theorem lookedAt_candidates (allowed : Option AllowedCollisions)
    (bodies objects : List (PlacedBody α)) :
    lookedAt (candidates allowed bodies objects) =
      (bodies ×ˢ objects).filter fun e => (skip? allowed e.1 e.2).isNone := by
  have hcandidates : candidates allowed bodies objects =
      (bodies ×ˢ objects).map fun e => candidate allowed e.1 e.2 := by
    show _ = (bodies.flatMap fun a => objects.map (Prod.mk a)).map _
    rw [List.map_flatMap]
    simp only [List.map_map]
    rfl
  rw [hcandidates]
  exact lookedAt_map _ _ (fun _ => rfl) _

/-- The two reasons for which a body of a robot and an obstacle are passed over. -/
theorem isNone_skip? (allowed : Option AllowedCollisions) (e : PlacedBody α × PlacedBody α) :
    (skip? allowed e.1 e.2).isNone =
      (!RobotChecker.isAllowed allowed e.1.name e.2.name && !e.1.touch.contains e.2.name) := by
  unfold skip?
  simp only [isNone_ite, Option.isNone_none, Bool.decide_eq_true, Bool.and_true]

theorem isNone_skip?_set (m : AllowedCollisions) (x y : String) (allowed : Bool)
    (e : PlacedBody α × PlacedBody α) :
    (skip? (some (m.set x y allowed)) e.1 e.2).isNone =
      if isNamed x y e then !allowed && !e.1.touch.contains e.2.name
      else (skip? (some m) e.1 e.2).isNone := by
  rw [isNone_skip?, isNone_skip?]
  simp only [RobotChecker.isAllowed, AllowedCollisions.get_set, ← isNamed_iff]
  cases isNamed x y e with
  | false => simp
  | true => simp

end WorldChecker

/-! ## All pairs -/

/-- The members with a property among those that another test lets through. -/
theorem filter_filter_of_ite {β : Type} {named keep keep' : β → Bool} (es : List β) :
    (es.filter fun e => if named e then keep e else keep' e).filter named =
        es.filter (fun e => named e && keep e) ∧
      (es.filter fun e => if named e then keep e else keep' e).filter (fun e => !named e) =
        (es.filter keep').filter fun e => !named e := by
  simp only [List.filter_filter]
  constructor
  · refine List.filter_congr fun e _ => ?_
    cases named e <;> rfl
  · refine List.filter_congr fun e _ => ?_
    cases named e <;> rfl

/-- Whatever a table of allowed collisions says, and whichever bodies are placed, after writing for
    two names:

    * If the names may collide, no pair of bodies with the names is looked at, neither of two bodies
      of the robot nor of a body and an obstacle.
    * If they may not, the pairs with the names that are looked at are, of the bodies at an earlier
      and a later place and in the order of these places, those that are not attached to one link
      and of which neither may touch the other, be they neighbours or not; and of a body and an
      obstacle those where the body may not touch the obstacle.
    * The pairs with other names that are looked at are those that were looked at before, in the
      same order. -/
theorem lookedAt_set (c : RobotChecker α) (m : AllowedCollisions) (x y : String)
    (bodies objects : List (PlacedBody α)) :
    let self := fun m => lookedAt (c.candidates (some m) bodies)
    let world := fun m => lookedAt (WorldChecker.candidates (some m) bodies objects)
    let places := (List.finRange bodies.length ×ˢ List.finRange bodies.length).filter fun e => e.1 < e.2
    ((self (m.set x y true)).filter (isNamed x y) = [] ∧
      (world (m.set x y true)).filter (isNamed x y) = []) ∧
    ((self (m.set x y false)).filter (isNamed x y) =
        (places.map fun e => (bodies.get e.1, bodies.get e.2)).filter
          (fun e => isNamed x y e && (!areAttachedTogether e && !mayTouch e)) ∧
      (world (m.set x y false)).filter (isNamed x y) =
        (bodies ×ˢ objects).filter fun e => isNamed x y e && !e.1.touch.contains e.2.name) ∧
    ∀ allowed,
      (self (m.set x y allowed)).filter (fun e => !isNamed x y e) =
        (self m).filter (fun e => !isNamed x y e) ∧
      (world (m.set x y allowed)).filter (fun e => !isNamed x y e) =
        (world m).filter fun e => !isNamed x y e := by
  intro self world places
  have hself : ∀ allowed, self (m.set x y allowed) = (RobotModel.pairs bodies).filter fun e =>
      if isNamed x y e then !allowed && (!areAttachedTogether e && !mayTouch e)
      else (c.skip? (some m) e.1 e.2).isNone := by
    intro allowed
    simp only [self, RobotChecker.lookedAt_candidates, RobotChecker.isNone_skip?_set]
  have hworld : ∀ allowed, world (m.set x y allowed) = (bodies ×ˢ objects).filter fun e =>
      if isNamed x y e then !allowed && !e.1.touch.contains e.2.name
      else (WorldChecker.skip? (some m) e.1 e.2).isNone := by
    intro allowed
    simp only [world, WorldChecker.lookedAt_candidates, WorldChecker.isNone_skip?_set]
  refine ⟨⟨?_, ?_⟩, ⟨?_, ?_⟩, fun allowed => ⟨?_, ?_⟩⟩
  · rw [hself, (filter_filter_of_ite _).1]
    simp
  · rw [hworld, (filter_filter_of_ite _).1]
    simp
  · rw [hself, (filter_filter_of_ite _).1, RobotModel.pairs_eq_places]
    simp [places]
  · rw [hworld, (filter_filter_of_ite _).1]
    simp
  · rw [hself, (filter_filter_of_ite _).2]
    simp only [self, RobotChecker.lookedAt_candidates]
  · rw [hworld, (filter_filter_of_ite _).2]
    simp only [world, WorldChecker.lookedAt_candidates]

end Clearance
