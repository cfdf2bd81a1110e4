import Clearance.Collision.Check
import Clearance.Proofs.Collision.DepthOrder
import Clearance.Proofs.Number.Binary64Order

/-!
# What a query adds to a result

A query stops early, limits the contacts of each pair and of all pairs, and adds to a result that
may hold contacts already. Its outcome is specified without any of this: every colliding pair offers
contacts, and of all that are offered the first ones are added, as many as there is room for.

* `Check.collidingPairs`: the pairs that count as collisions.
* `Check.offered`: the contacts these pairs offer, limited for each pair only.
* `Check.run_gathers`: what a run leaves behind, in terms of `Check.collected`.
* `Check.run_aggregates`: the same with the order of depth and the two kinds of requests written
  out.
-/

namespace Clearance

theorem PlacedBody.content_eq_ok {α : Type} {b : PlacedBody α} {content : BodyContent α} :
    b.content = .ok content ↔ b.body.content = some content := by
  unfold PlacedBody.content
  cases b.body.content <;> simp

/-- Two placed bodies can be compared if neither is released. -/
theorem PlacedPair.of_eq_ok {α : Type} {a b : PlacedBody α} {p : PlacedPair α} :
    PlacedPair.of a b = .ok p ↔
      a.content = .ok p.firstContent ∧ b.content = .ok p.secondContent ∧ p.first = a ∧ p.second = b := by
  constructor
  · intro h
    obtain ⟨ca, hca, h⟩ := bind_eq_ok.mp h
    obtain ⟨cb, hcb, h⟩ := bind_eq_ok.mp h
    cases h
    exact ⟨hca, hcb, rfl, rfl⟩
  · rintro ⟨hca, hcb, rfl, rfl⟩
    exact bind_eq_ok.mpr ⟨_, hca, bind_eq_ok.mpr ⟨_, hcb, rfl⟩⟩

end Clearance

namespace Clearance.Check

variable {α : Type} [Scalar α]

/-! ## Specification -/

/-- The pairs that are looked at, unless one of the bodies is released. -/
def placedPairs : List (Candidate α) → Except Fault (List (PlacedPair α))
  | [] => .ok []
  | .skipped _ _ _ :: rest => placedPairs rest
  | .pair a b :: rest => do
    let p ← PlacedPair.of a b
    return p :: (← placedPairs rest)

omit [Scalar α] in
/-- The pairs that are looked at are those of the candidates. -/
theorem mem_placedPairs {candidates : List (Candidate α)} {pairs : List (PlacedPair α)}
    (h : placedPairs candidates = .ok pairs) {p : PlacedPair α} :
    p ∈ pairs ↔ ∃ a b, Candidate.pair a b ∈ candidates ∧ PlacedPair.of a b = .ok p := by
  induction candidates generalizing pairs with
  | nil =>
    cases h
    simp
  | cons candidate rest ih =>
    cases candidate with
    | skipped first second why => simpa using ih h
    | pair a b =>
      obtain ⟨q, hq, h⟩ := bind_eq_ok.mp h
      obtain ⟨ps, hps, h⟩ := bind_eq_ok.mp h
      cases h
      rw [List.mem_cons, ih hps]
      constructor
      · rintro (rfl | ⟨a', b', hab, hp⟩)
        · exact ⟨a, b, List.mem_cons_self, hq⟩
        · exact ⟨a', b', List.mem_cons_of_mem _ hab, hp⟩
      · rintro ⟨a', b', hab, hp⟩
        rcases List.mem_cons.mp hab with heq | hab
        · cases heq
          exact .inl (Except.ok.inj (hp.symm.trans hq))
        · exact .inr ⟨a', b', hab, hp⟩

/-- Whether a pair counts as a collision: some sample is at a distance that is not positive, and the
    spheres around the bodies are not far apart, unless the least distance is wanted. -/
def counts (request : CollisionRequest α) (p : PlacedPair α) : Bool :=
  (request.distance || !p.isFar) && collides (Scalar.minimum (p.hits.map Hit.distance))

/-- The pairs that count as collisions. -/
def collidingPairs (request : CollisionRequest α) (pairs : List (PlacedPair α)) :
    List (PlacedPair α) :=
  pairs.filter (counts request)

/-- Contacts under the names of their pairs. -/
abbrev ContactTable (α : Type) := Table (String × String) (List (Contact (Vec3 α) α))

/-- A table with one more contact, the last one under the names that it carries. -/
def enter (t : ContactTable α) (c : Contact (Vec3 α) α) : ContactTable α :=
  t.set (c.first, c.second) ((t.find? (c.first, c.second)).getD [] ++ [c])

/-- How many contacts a table holds under a key. -/
def heldIn (t : ContactTable α) (key : String × String) : Nat := ((t.find? key).getD []).length

/-- The contacts that a pair offers beside those that a table holds: the first of its places, no
    more than the pair may have. -/
def fresh (perPair : Int) (places : PlacedPair α → List Nat) (t : ContactTable α)
    (p : PlacedPair α) : List (Contact (Vec3 α) α) :=
  ((places p).take (perPair - (heldIn t p.key : Int)).toNat).filterMap fun i =>
    (p.hits[i]?).map (contactAt p)

/-- The contacts that pairs offer one after the other, each beside those that the pairs before it
    offered. -/
def offered (perPair : Int) (places : PlacedPair α → List Nat) :
    List (PlacedPair α) → ContactTable α → List (Contact (Vec3 α) α)
  | [], _ => []
  | p :: rest, t =>
    fresh perPair places t p ++ offered perPair places rest
      ((fresh perPair places t p).foldl enter t)

/-- The places of a pair in the order of depth, as the program finds them. -/
def depthPlaces (p : PlacedPair α) : List Nat := collidingPlaces (p.hits.map Hit.distance)

/-- The contacts that are added for a list of colliding pairs: of those that are offered as many as
    there is room for, and none if contacts are not wanted. -/
def collected (request : CollisionRequest α) (cap perPair : Int) (pairs : List (PlacedPair α))
    (r : CollisionResult α) : List (Contact (Vec3 α) α) :=
  if request.contacts then
    (offered perPair depthPlaces pairs r.contacts).take (cap - (r.contactCount : Int)).toNat
  else []

/-- A result after a collision with these contacts. -/
def withFindings (r : CollisionResult α) (new : List (Contact (Vec3 α) α)) : CollisionResult α :=
  { r with
    collision := true
    contactCount := r.contactCount + new.length
    contacts := new.foldl enter r.contacts }

/-- Whether nothing that a query still could find is wanted. -/
def finished (request : CollisionRequest α) (cap : Int) (r : CollisionResult α) : Bool :=
  !request.exhaustive && (!request.contacts || cap ≤ (r.contactCount : Int))

/-! ## Contacts of one pair -/

omit [Scalar α] in
theorem foldl_addContact (key : String × String) (cs : List (Contact (Vec3 α) α))
    (h : ∀ c ∈ cs, (c.first, c.second) = key) (r : CollisionResult α) :
    cs.foldl (fun r c => r.addContact key c) r =
      { r with
        contactCount := r.contactCount + cs.length
        contacts := cs.foldl enter r.contacts } := by
  induction cs generalizing r with
  | nil => rfl
  | cons c rest ih =>
    rw [List.foldl_cons, List.foldl_cons, ih fun c hc => h c (List.mem_cons_of_mem _ hc)]
    simp only [CollisionResult.addContact, enter, h c List.mem_cons_self, List.length_cons,
      Nat.add_assoc, Nat.add_comm 1]

theorem take_filterMap {β γ : Type} (f : β → Option γ) (xs : List β) (h : ∀ x ∈ xs, (f x).isSome)
    (n : Nat) : (xs.filterMap f).take n = (xs.take n).filterMap f := by
  induction xs generalizing n with
  | nil => simp
  | cons x rest ih =>
    obtain ⟨y, hy⟩ := Option.isSome_iff_exists.mp (h x List.mem_cons_self)
    cases n with
    | zero => rfl
    | succ n =>
      rw [List.filterMap_cons_some hy, List.take_succ_cons, List.take_succ_cons,
        List.filterMap_cons_some hy, ih fun x hx => h x (List.mem_cons_of_mem _ hx)]

/-- The samples behind a collision are those whose distance is not positive. -/
theorem mem_collidingHits {hits : List (Hit α)} {h : Hit α} :
    h ∈ collidingHits hits ↔ h ∈ hits ∧ Scalar.le h.distance 0 = true := by
  have hat : ∀ (i : Nat) (d : α), (hits.map Hit.distance)[i]? = some d ↔
      ∃ h : Hit α, hits[i]? = some h ∧ h.distance = d := by
    intro i d
    rw [List.getElem?_map, Option.map_eq_some_iff]
  simp only [collidingHits, List.getElem?_toArray, List.mem_filterMap, mem_collidingPlaces, hat]
  constructor
  · rintro ⟨i, ⟨_, ⟨h', hh', rfl⟩, hle⟩, hh⟩
    cases hh'.symm.trans hh
    exact ⟨List.mem_of_getElem? hh, hle⟩
  · rintro ⟨hh, hle⟩
    obtain ⟨i, hi⟩ := List.mem_iff_getElem?.mp hh
    exact ⟨i, ⟨_, ⟨h, hi, rfl⟩, hle⟩, hi⟩

/-- Every colliding place is the place of a sample. -/
theorem isSome_of_mem_collidingPlaces {hits : List (Hit α)} {i : Nat}
    (h : i ∈ collidingPlaces (hits.map Hit.distance)) : (hits[i]?).isSome := by
  obtain ⟨d, hd, -⟩ := mem_collidingPlaces.mp h
  rw [List.getElem?_map] at hd
  exact Option.isSome_of_mem (Option.map_eq_some_iff.mp hd).choose_spec.1

/-- The program takes the samples from their places first and cuts their list then. -/
theorem fresh_eq [LawfulScalar α] (perPair : Int) (t : ContactTable α) (p : PlacedPair α) :
    fresh perPair depthPlaces t p =
      ((collidingHits p.hits).take (perPair - (heldIn t p.key : Int)).toNat).map (contactAt p) := by
  have table : collidingHits p.hits = (depthPlaces p).filterMap fun i => p.hits[i]? := by
    simp only [collidingHits, depthPlaces, List.getElem?_toArray]
  have hsome : ∀ i ∈ depthPlaces p, (p.hits[i]?).isSome := fun _ hi => isSome_of_mem_collidingPlaces hi
  rw [table, take_filterMap _ _ hsome, List.map_filterMap]
  rfl

section Caps

variable {request : CollisionRequest α} {cap perPair : Int}

theorem wholePart_of_int? {given : Given α} {n : Int} (h : given.int? = some n) :
    CollisionRequest.wholePart given = .ok n := by
  cases given with
  | int m => cases h; rfl
  | bool b => cases h; rfl
  | real x => cases h
  | text s t => cases h
  | other => cases h

/-- A cap on all contacts that is not written with a fraction limits them by its integer part. -/
theorem room_of_wholePart (hreal : ∀ x, request.maxContacts ≠ .real x)
    (hc : CollisionRequest.wholePart request.maxContacts = .ok cap) (hk : request.perPair = .ok perPair)
    (r : CollisionResult α) (key : String × String) (found : Nat) :
    room request r key found =
      .ok (min (min (perPair - (r.held key : Int)) (cap - (r.contactCount : Int))) found).toNat := by
  unfold room
  rw [hk]
  split
  · exact absurd ‹_› (hreal _)
  · rw [hc]
    rfl

theorem isFull_of_wholePart (hreal : ∀ x, request.maxContacts ≠ .real x)
    (hc : CollisionRequest.wholePart request.maxContacts = .ok cap) (r : CollisionResult α) :
    isFull request r = decide (cap ≤ (r.contactCount : Int)) := by
  unfold isFull
  split
  · exact absurd ‹_› (hreal _)
  · rw [hc]

omit [Scalar α] in
theorem ne_real_of_int? {given : Given α} {n : Int} (h : given.int? = some n) (x : α) : given ≠ .real x := by
  rintro rfl
  cases h

theorem room_eq (hc : request.maxContacts.int? = some cap)
    (hk : request.maxPerPair.int? = some perPair) (r : CollisionResult α) (key : String × String)
    (found : Nat) :
    room request r key found =
      .ok (min (min (max 1 perPair - (r.held key : Int)) (cap - (r.contactCount : Int)))
      found).toNat := by
  have hp : request.perPair = .ok (max 1 perPair) := by
    rw [CollisionRequest.perPair, wholePart_of_int? hk]
    rfl
  exact room_of_wholePart (ne_real_of_int? hc) (wholePart_of_int? hc) hp r key found

theorem isFull_eq (hc : request.maxContacts.int? = some cap) (r : CollisionResult α) :
    isFull request r = decide (cap ≤ (r.contactCount : Int)) :=
  isFull_of_wholePart (ne_real_of_int? hc) (wholePart_of_int? hc) r

/-- The contacts that are added for one pair. -/
def added (request : CollisionRequest α) (cap perPair : Int) (r : CollisionResult α)
    (p : PlacedPair α) : List (Contact (Vec3 α) α) :=
  if request.contacts then
    (fresh perPair depthPlaces r.contacts p).take (cap - (r.contactCount : Int)).toNat
  else []

/-- What is added for a list of pairs is added for its first pair and then for the others. -/
theorem collected_cons (r : CollisionResult α) (p : PlacedPair α) (rest : List (PlacedPair α)) :
    collected request cap perPair (p :: rest) r =
      added request cap perPair r p ++
        collected request cap perPair rest (withFindings r (added request cap perPair r p)) := by
  unfold collected added withFindings
  cases request.contacts
  · rfl
  · simp only [if_true, offered, List.take_append]
    congr 1
    generalize fresh perPair depthPlaces r.contacts p = new
    by_cases h : new.length ≤ (cap - (r.contactCount : Int)).toNat
    · rw [List.take_of_length_le h]
      congr 1
      omega
    · -- There is no room for the others, so it does not matter beside what they are offered.
      have hl : (new.take (cap - (r.contactCount : Int)).toNat).length =
          (cap - (r.contactCount : Int)).toNat := by
        rw [List.length_take]
        omega
      rw [hl, show (cap - (r.contactCount : Int)).toNat - new.length = 0 by omega,
        show (cap - ((r.contactCount + (cap - (r.contactCount : Int)).toNat : Nat) : Int)).toNat =
          0 by omega,
        List.take_zero, List.take_zero]

/-- Once a query is finished, no contacts are added any more. -/
theorem collected_of_finished {r : CollisionResult α} (h : finished request cap r = true)
    (pairs : List (PlacedPair α)) : collected request cap perPair pairs r = [] := by
  unfold collected
  split
  · rename_i hw
    have hle : cap ≤ (r.contactCount : Int) := by
      simpa [finished, hw] using (Bool.and_eq_true_iff.mp h).2
    rw [show (cap - (r.contactCount : Int)).toNat = 0 by omega, List.take_zero]
  · rfl

/-- The result after a pair has been looked at, before its contacts are added. -/
def seen (request : CollisionRequest α) (r : CollisionResult α) (p : PlacedPair α) :
    CollisionResult α :=
  if request.distance then
    { r with distance := lesser r.distance (Scalar.minimum (p.hits.map Hit.distance)) }
  else r

@[simp] theorem seen_collision (r : CollisionResult α) (p : PlacedPair α) :
    (seen request r p).collision = r.collision := by
  unfold seen
  split <;> rfl

@[simp] theorem seen_contactCount (r : CollisionResult α) (p : PlacedPair α) :
    (seen request r p).contactCount = r.contactCount := by
  unfold seen
  split <;> rfl

@[simp] theorem seen_contacts (r : CollisionResult α) (p : PlacedPair α) :
    (seen request r p).contacts = r.contacts := by
  unfold seen
  split <;> rfl

theorem finished_seen {r : CollisionResult α} {p : PlacedPair α} {new : List (Contact (Vec3 α) α)} :
    finished request cap (withFindings (seen request r p) new) =
      finished request cap (withFindings r new) := by
  unfold seen
  split <;> rfl

variable [LawfulScalar α]

/-- Recording a collision adds the contacts of the pair for which there is room, and ends the query
    if nothing that could still be found is wanted. -/
theorem record_eq (hc : request.maxContacts.int? = some cap)
    (hk : request.maxPerPair.int? = some perPair) (r : CollisionResult α) (p : PlacedPair α) :
    record request r p p.hits =
      (withFindings r (added request cap (max 1 perPair) r p),
        if finished request cap (withFindings r (added request cap (max 1 perPair) r p)) then .stop
        else .proceed) := by
  have cut : request.contacts = true →
      ((collidingHits p.hits).take (min (min (max 1 perPair - (heldIn r.contacts p.key : Int))
        (cap - (r.contactCount : Int))) (collidingHits p.hits).length).toNat).map (contactAt p) =
      added request cap (max 1 perPair) r p := by
    intro hw
    rw [added, if_pos hw, fresh_eq, ← List.map_take, List.take_take]
    congr 1
    rw [List.take_eq_take_iff]
    omega
  unfold record finished
  cases hw : request.contacts
  · rw [added, hw]
    cases request.exhaustive <;> rfl
  · have hr : ({ r with collision := true } : CollisionResult α).held p.key =
      heldIn r.contacts p.key := rfl
    have keyed : ∀ c ∈ added request cap (max 1 perPair) r p, (c.first, c.second) = p.key := by
      intro c hm
      rw [← cut hw] at hm
      obtain ⟨h, -, rfl⟩ := List.mem_map.mp hm
      rfl
    simp only [Bool.not_true, Bool.false_eq_true, if_false, Bool.false_or, room_eq hc hk,
      isFull_eq hc, hr, cut hw, foldl_addContact p.key _ keyed, withFindings]
    cases request.exhaustive
    · rfl
    · simp

omit [LawfulScalar α] in
theorem pair_of_not_counts {a b : PlacedBody α} {p : PlacedPair α} (hp : PlacedPair.of a b = .ok p)
    (h : counts request p = false) (r : CollisionResult α) :
    pair request r a b = (seen request r p, [], .proceed) := by
  unfold pair seen
  rw [hp]
  dsimp only
  cases hd : request.distance
  · cases hf : p.isFar
    · have hl : collides (Scalar.minimum (p.hits.map Hit.distance)) = false := by
        simpa [counts, hd, hf] using h
      simp only [Bool.not_false, Bool.true_and, Bool.false_eq_true, if_false, hl]
      cases Scalar.minimum (p.hits.map Hit.distance) <;> rfl
    · rfl
  · have hl : collides (Scalar.minimum (p.hits.map Hit.distance)) = false := by
      simpa [counts, hd] using h
    simp only [Bool.not_true, Bool.false_and, Bool.false_eq_true, if_false, if_true, hl]
    cases Scalar.minimum (p.hits.map Hit.distance) <;> rfl

omit [LawfulScalar α] in
/-- A pair that counts as a collision is recorded. -/
theorem pair_eq_record {a b : PlacedBody α} {p : PlacedPair α} (hp : PlacedPair.of a b = .ok p)
    (h : counts request p = true) (r : CollisionResult α) :
    ∃ events, pair request r a b =
      ((record request (seen request r p) p p.hits).1, events, (record request (seen request r p) p p.hits).2) := by
  obtain ⟨hnear, hl⟩ := Bool.and_eq_true_iff.mp h
  obtain ⟨d, hd⟩ : ∃ d, Scalar.minimum (p.hits.map Hit.distance) = some d := by
    cases hm : Scalar.minimum (p.hits.map Hit.distance) with
    | none => rw [hm] at hl; cases hl
    | some d => exact ⟨d, rfl⟩
  have hskip : (!request.distance && p.isFar) = false := by
    rw [← Bool.not_eq_true', Bool.not_and, Bool.not_not]
    exact hnear
  have hseen : (if request.distance = true then
      { r with distance := lesser r.distance (Scalar.minimum (p.hits.map Hit.distance)) } else r) =
      seen request r p := rfl
  unfold pair
  rw [hp]
  dsimp only
  rw [hskip]
  simp only [Bool.false_eq_true, if_false, hl, if_true, hseen]
  rw [hd]
  exact ⟨_, rfl⟩

theorem pair_of_counts (hc : request.maxContacts.int? = some cap)
    (hk : request.maxPerPair.int? = some perPair) {a b : PlacedBody α} {p : PlacedPair α}
    (hp : PlacedPair.of a b = .ok p) (h : counts request p = true) (r : CollisionResult α) :
    ∃ events, pair request r a b =
      (withFindings (seen request r p) (added request cap (max 1 perPair) r p), events,
        if finished request cap (withFindings r (added request cap (max 1 perPair) r p)) then .stop
        else .proceed) := by
  have hadded : added request cap (max 1 perPair) (seen request r p) p =
      added request cap (max 1 perPair) r p := by
    simp only [added, seen_contacts, seen_contactCount]
  have hrec := record_eq hc hk (seen request r p) p
  rw [hadded, finished_seen] at hrec
  obtain ⟨events, hpair⟩ := pair_eq_record hp h r
  exact ⟨events, by rw [hpair, hrec]⟩

/-! ## All pairs -/

/-- What a query on these colliding pairs leaves behind: it does not fail, tells whether there are
    any, and has added the contacts that are collected. -/
structure Gathers (request : CollisionRequest α) (cap perPair : Int) (found : List (PlacedPair α))
    (old : CollisionResult α) (check : Check α) : Prop where
  failure : check.failure = none
  collision : check.result.collision = (old.collision || !found.isEmpty)
  contactCount : check.result.contactCount =
    old.contactCount + (collected request cap perPair found old).length
  contacts : check.result.contacts =
    (collected request cap perPair found old).foldl enter old.contacts

omit [LawfulScalar α] in
theorem Gathers.of_seen {p : PlacedPair α} {found : List (PlacedPair α)} {r : CollisionResult α}
    {check : Check α} (h : Gathers request cap perPair found (seen request r p) check) :
    Gathers request cap perPair found r check where
  failure := h.failure
  collision := by rw [h.collision, seen_collision]
  contactCount := by simpa only [collected, seen_contactCount, seen_contacts] using h.contactCount
  contacts := by simpa only [collected, seen_contactCount, seen_contacts] using h.contacts

omit [LawfulScalar α] in
/-- A collision adds its contacts before those of the pairs that follow. -/
theorem Gathers.cons {p : PlacedPair α} {found : List (PlacedPair α)} {r : CollisionResult α}
    {check : Check α}
    (h : Gathers request cap perPair found
      (withFindings (seen request r p) (added request cap perPair r p)) check) :
    Gathers request cap perPair (p :: found) r check where
  failure := h.failure
  collision := by rw [h.collision]; simp [withFindings]
  contactCount := by
    have hcount := h.contactCount
    simp only [withFindings, collected, seen_contactCount, seen_contacts] at hcount
    rw [hcount, collected_cons, List.length_append, ← Nat.add_assoc]
    rfl
  contacts := by
    have hcontacts := h.contacts
    simp only [withFindings, collected, seen_contactCount, seen_contacts] at hcontacts
    rw [hcontacts, collected_cons, List.foldl_append]
    rfl

omit [LawfulScalar α] in
/-- A query may stop once it is finished, whatever pairs are left. -/
theorem gathers_of_finished {r : CollisionResult α} (hr : r.collision = true)
    (h : finished request cap r = true) (found : List (PlacedPair α)) (events : Array (Event α)) :
    Gathers request cap perPair found r ⟨r, events, none⟩ where
  failure := rfl
  collision := by rw [hr, Bool.true_or]
  contactCount := by rw [collected_of_finished h]; rfl
  contacts := by rw [collected_of_finished h]; rfl

/-- A run gathers what the pairs that count as collisions offer. -/
theorem run_gathers (hc : request.maxContacts.int? = some cap)
    (hk : request.maxPerPair.int? = some perPair) (candidates : List (Candidate α))
    {pairs : List (PlacedPair α)} (hp : placedPairs candidates = .ok pairs) (r : CollisionResult α)
    (events : Array (Event α)) :
    Gathers request cap (max 1 perPair) (collidingPairs request pairs) r
      (run request candidates r events) := by
  induction candidates generalizing pairs r events with
  | nil =>
    cases hp
    refine ⟨rfl, ?_, ?_, ?_⟩ <;> simp [run, collidingPairs, collected, offered]
  | cons c rest ih =>
    cases c with
    | skipped first second why => exact ih hp r _
    | pair a b =>
      rw [placedPairs] at hp
      obtain ⟨p, hab, hp⟩ := bind_eq_ok.mp hp
      obtain ⟨ps, hps, hp⟩ := bind_eq_ok.mp hp
      cases hp
      rw [run]
      cases hcount : counts request p with
      | false =>
        have hE : collidingPairs request (p :: ps) = collidingPairs request ps :=
          List.filter_cons_of_neg (by simp [hcount])
        rw [pair_of_not_counts hab hcount, hE]
        exact (ih hps _ _).of_seen
      | true =>
        have hE : collidingPairs request (p :: ps) = p :: collidingPairs request ps :=
          List.filter_cons_of_pos hcount
        obtain ⟨more, hpair⟩ := pair_of_counts hc hk hab hcount r
        rw [hpair, hE]
        refine Gathers.cons ?_
        dsimp only
        cases hfin :
          finished request cap (withFindings r (added request cap (max 1 perPair) r p)) with
        | false => exact ih hps _ _
        | true =>
          exact gathers_of_finished rfl (finished_seen.trans hfin) _ _

/-- The verdict of a query on a new result is whether some pair counts as a collision. -/
theorem collision_run (hc : request.maxContacts.int? = some cap)
    (hk : request.maxPerPair.int? = some perPair) {candidates : List (Candidate α)}
    {pairs : List (PlacedPair α)} (hp : placedPairs candidates = .ok pairs) (events : Array (Event α)) :
    (run request candidates .empty events).result.collision = pairs.any (counts request) := by
  rw [(run_gathers hc hk candidates hp _ events).collision, collidingPairs, Bool.eq_iff_iff]
  simp [CollisionResult.empty]

end Caps

/-! ## The outcome of a query -/

/-- A query whose caps are integers does not fail on pairs of bodies none of which is released. It
    tells of a collision if there was one before or some pair counts as one. If contacts are wanted,
    the colliding pairs offer one after the other the samples that come first in the order of depth,
    each pair as many as it may have beside those already held under its names, and the first
    contacts offered are added, as many as there is room for. -/
theorem run_aggregates [LawfulScalar α] (request : CollisionRequest α) (cap perPair : Int)
    (hc : request.maxContacts.int? = some cap) (hk : request.maxPerPair.int? = some perPair)
    (candidates : List (Candidate α)) (pairs : List (PlacedPair α))
    (hp : placedPairs candidates = .ok pairs) (old : CollisionResult α) (events : Array (Event α)) :
    (run request candidates old events).failure = none ∧
    (run request candidates old events).result.collision =
      (old.collision || !(collidingPairs request pairs).isEmpty) ∧
    (request.contacts = false →
      (run request candidates old events).result.contacts = old.contacts ∧
      (run request candidates old events).result.contactCount = old.contactCount) ∧
    (request.contacts = true → ∃ places : PlacedPair α → List Nat,
      (∀ p, IsDepthOrder (p.hits.map Hit.distance) (places p)) ∧
      let new := (offered (max 1 perPair) places (collidingPairs request pairs) old.contacts).take
        (cap - (old.contactCount : Int)).toNat
      (run request candidates old events).result.contacts = new.foldl enter old.contacts ∧
      (run request candidates old events).result.contactCount = old.contactCount + new.length) := by
  have h := run_gathers hc hk candidates hp old events
  refine ⟨h.failure, h.collision, ?_, ?_⟩
  · intro hw
    have none : collected request cap (max 1 perPair) (collidingPairs request pairs) old = [] := by
      simp only [collected, hw, Bool.false_eq_true, if_false]
    rw [h.contacts, h.contactCount, none]
    exact ⟨rfl, rfl⟩
  · intro hw
    have some : collected request cap (max 1 perPair) (collidingPairs request pairs) old =
        (offered (max 1 perPair) depthPlaces (collidingPairs request pairs) old.contacts).take
          (cap - (old.contactCount : Int)).toNat := if_pos hw
    refine ⟨depthPlaces, fun p => isDepthOrder_collidingPlaces _, ?_⟩
    rw [h.contacts, h.contactCount, some]
    exact ⟨rfl, rfl⟩

/-- The field of a body that reaches farther than its grid, and one sample. -/
def solidContent : BodyContent Float :=
  ⟨[], ⟨⟨0, 0, 0⟩, 1, Grid.ofFn 2 2 2 fun _ _ _ => -1, fun _ _ _ => ⟨0, 0, 1⟩⟩, none, [⟨0, 0, 0⟩]⟩

/-- An obstacle with that field. -/
def solidObstacle (name : String) : PlacedBody Float :=
  ⟨name, none, "world_object", ⟨name, .obstacle Pose.origin, some solidContent, ⟨0, 0, 0⟩, 0⟩,
    Pose.origin, []⟩

/-- Two obstacles at one place. -/
def solidPair : PlacedPair Float :=
  ⟨solidObstacle "a", solidObstacle "b", solidContent, solidContent⟩

theorem distances_solidPair : solidPair.hits.map Hit.distance = [-1, -1] := by
  have first : ∀ o r x : Float, DistanceField.cell o r 2 x = 0 := by simp [DistanceField.cell]
  simp only [solidPair, PlacedPair.hits, PlacedPair.oriented, solidObstacle, PlacedPair.key,
    pairKey, String.reduceLT, if_false, PlacedPair.hitsIn, solidContent, List.map, Hit.lookUp,
    DistanceField.sample, DistanceField.interpolate, Grid.ofFn, first]
  decide +kernel

theorem counts_solidPair (request : CollisionRequest Float) : counts request solidPair = true := by
  have near : solidPair.isFar = false := by decide +kernel
  rw [counts, near, distances_solidPair, Bool.not_false, Bool.or_true, Bool.true_and]
  decide +kernel

/-- Two obstacles at one place collide, and one contact is added. -/
theorem run_aggregates_solidPair :
    let request : CollisionRequest Float := { CollisionRequest.standard with contacts := true }
    let candidates := [Candidate.pair (solidObstacle "a") (solidObstacle "b")]
    request.maxContacts.int? = some 1 ∧ request.maxPerPair.int? = some 1 ∧ request.contacts = true ∧
    placedPairs candidates = .ok [solidPair] ∧
    (run request candidates CollisionResult.empty #[]).result.collision = true ∧
    (run request candidates CollisionResult.empty #[]).result.contactCount = 1 := by
  intro request candidates
  obtain ⟨-, hcollision, -, hcontacts⟩ :=
    run_aggregates request 1 1 rfl rfl candidates [solidPair] rfl CollisionResult.empty #[]
  have found : collidingPairs request [solidPair] = [solidPair] := by
    rw [collidingPairs, List.filter_cons_of_pos (counts_solidPair request), List.filter_nil]
  rw [found] at hcollision hcontacts
  obtain ⟨places, hplaces, -, hcount⟩ := hcontacts rfl
  refine ⟨rfl, rfl, rfl, rfl, hcollision, ?_⟩
  have deep : 0 ∈ places solidPair := by
    rw [(hplaces solidPair).mem_iff, distances_solidPair]
    exact ⟨-1, rfl, by decide +kernel⟩
  cases hi : places solidPair with
  | nil => rw [hi] at deep; cases deep
  | cons i rest =>
    obtain ⟨d, hd, -⟩ := ((hplaces solidPair).mem_iff i).mp (hi ▸ List.mem_cons_self)
    rw [List.getElem?_map, Option.map_eq_some_iff] at hd
    obtain ⟨h, hh, -⟩ := hd
    have hnew : fresh (max 1 1) places CollisionResult.empty.contacts solidPair =
        [contactAt solidPair h] := by
      rw [fresh, hi]
      show List.filterMap _ [i] = _
      rw [List.filterMap_cons_some (by rw [hh]; rfl), List.filterMap_nil]
    rw [hcount, offered, offered, hnew]
    rfl

end Clearance.Check
