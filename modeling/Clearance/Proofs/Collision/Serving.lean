import Clearance.Proofs.Collision.Culling
import Clearance.Proofs.Collision.Placing

/-!
# Requests that are served

A request is served if its query does not fail. A cap can be written in several ways, and a query on
an accepted request comes to the same whatever way that is; only if contacts are wanted and the cap
on all of them is written with a fraction, the query can fail, after it has changed the result. If a
query fails otherwise, the result is what it was before.

* `CollisionRequest.counted`: a request with its caps as natural numbers.
* `Check.Alike`, `Check.run_congr`: requests that no query tells apart.
* `Check.failure_run`: a query on bodies that are not released does not fail.
* `Checkers.served_of_comes`: the queries of robot checkers and worlds that came about.
-/

namespace Clearance

variable {α : Type} [Scalar α]

/-! ## Caps as natural numbers -/

/-- The natural number that a cap stands for. -/
def Given.natural (cap : Given α) : Nat :=
  match CollisionRequest.wholePart cap with
  | .ok n => n.toNat
  | .error _ => 0

namespace CollisionRequest

/-- A request with its caps as natural numbers. -/
def counted (r : CollisionRequest α) : CollisionRequest α :=
  { r with maxContacts := .int r.maxContacts.natural, maxPerPair := .int r.maxPerPair.natural }

theorem checkCap_eq_ok {field : String} {cap : Given α} :
    checkCap field cap = .ok () ↔ ∃ whole, wholePart cap = .ok whole ∧ isNatural whole cap = true := by
  unfold checkCap
  rw [bind_eq_ok]
  refine exists_congr fun whole => and_congr Fault.lift_eq_ok ?_
  cases isNatural whole cap with
  | true => exact ⟨fun _ => rfl, fun _ => rfl⟩
  | false => exact ⟨nofun, nofun⟩

theorem validate_eq_ok {r : CollisionRequest α} :
    r.validate = .ok () ↔ checkCap "max_contacts" r.maxContacts = .ok () ∧
      checkCap "max_contacts_per_pair" r.maxPerPair = .ok () := by
  constructor
  · intro h
    obtain ⟨_, hcap, hpair⟩ := bind_eq_ok.mp h
    exact ⟨hcap, hpair⟩
  · rintro ⟨hcap, hpair⟩
    exact bind_eq_ok.mpr ⟨_, hcap, hpair⟩

theorem validate_counted (r : CollisionRequest α) : r.counted.validate = .ok () := by
  have hnatural : ∀ (field : String) (n : Nat), checkCap field (.int n : Given α) = .ok () :=
    fun field n => checkCap_eq_ok.mpr ⟨n, rfl, decide_eq_true (Int.natCast_nonneg n)⟩
  exact validate_eq_ok.mpr ⟨hnatural _ _, hnatural _ _⟩

/-- An accepted cap that is not written with a fraction is a natural number. -/
theorem wholePart_of_not_real {field : String} {cap : Given α} (h : checkCap field cap = .ok ())
    (hreal : ∀ x, cap ≠ .real x) : wholePart cap = .ok (cap.natural : Int) := by
  obtain ⟨whole, hwhole, hnatural⟩ := checkCap_eq_ok.mp h
  have hcast : cap.natural = whole.toNat := by rw [Given.natural, hwhole]
  rw [hcast, hwhole]
  cases cap with
  | int n =>
    cases hwhole
    rw [Int.toNat_of_nonneg (of_decide_eq_true hnatural)]
  | bool b =>
    cases hwhole
    cases b <;> rfl
  | real x => exact absurd rfl (hreal x)
  | text s t => cases hnatural
  | other => cases hnatural

/-- A pair may have as many contacts whatever way the cap is written, since it may have one at
    least. -/
theorem perPair_counted {r : CollisionRequest α}
    (h : checkCap "max_contacts_per_pair" r.maxPerPair = .ok ()) : r.perPair = r.counted.perPair := by
  obtain ⟨whole, hwhole, -⟩ := checkCap_eq_ok.mp h
  have hcast : r.maxPerPair.natural = whole.toNat := by rw [Given.natural, hwhole]
  unfold perPair counted
  rw [hwhole, hcast]
  refine congrArg Except.ok ?_
  show max 1 whole = max 1 (whole.toNat : Int)
  omega

end CollisionRequest

/-! ## Requests that no query tells apart -/

namespace Check

variable {request request' : CollisionRequest α}

/-- Two requests want the same of every pair. -/
structure Alike (request request' : CollisionRequest α) : Prop where
  contacts : request.contacts = request'.contacts
  verbose : request.verbose = request'.verbose
  distance : request.distance = request'.distance
  room : request.contacts = true → room request = room request'
  full : request.contacts = true → isFull request = isFull request'

theorem record_congr (h : Alike request request') : record request = record request' := by
  funext result p hits
  unfold record CollisionRequest.exhaustive
  rw [← h.contacts, ← h.verbose, ← h.distance]
  cases hcontacts : request.contacts with
  | false => rfl
  | true => rw [h.room hcontacts, h.full hcontacts]

theorem pair_congr (h : Alike request request') : pair request = pair request' := by
  funext result a b
  unfold pair
  rw [record_congr h, h.distance, h.verbose]

/-- A query does not tell such requests apart. -/
theorem run_congr (h : Alike request request') (candidates : List (Candidate α)) (result : CollisionResult α)
    (events : Array (Event α)) : run request candidates result events = run request' candidates result events := by
  induction candidates generalizing result events with
  | nil => rfl
  | cons candidate rest ih =>
    cases candidate with
    | skipped first second why => exact ih _ _
    | pair a b =>
      rw [run, run, pair_congr h]
      generalize pair request' result a b = r
      obtain ⟨result', more, next⟩ := r
      cases next with
      | proceed => exact ih _ _
      | stop => rfl
      | fail e => rfl

/-- Caps may be written as natural numbers, but for the one on all contacts if it counts and is
    written with a fraction. -/
theorem alike_counted (hvalid : request.validate = .ok ())
    (hreal : request.contacts = true → ∀ x, request.maxContacts ≠ .real x) : Alike request request.counted := by
  obtain ⟨hcap, hpair⟩ := CollisionRequest.validate_eq_ok.mp hvalid
  have hcounted : ∀ x, request.counted.maxContacts ≠ .real x := fun _ => nofun
  obtain ⟨k, hk⟩ : ∃ k, request.counted.perPair = .ok k := ⟨_, rfl⟩
  refine ⟨rfl, rfl, rfl, fun hcontacts => ?_, fun hcontacts => ?_⟩
  · have hwhole := CollisionRequest.wholePart_of_not_real hcap (hreal hcontacts)
    funext result key found
    rw [room_of_wholePart (hreal hcontacts) hwhole ((CollisionRequest.perPair_counted hpair).trans hk),
      room_of_wholePart hcounted rfl hk]
  · have hwhole := CollisionRequest.wholePart_of_not_real hcap (hreal hcontacts)
    funext result
    rw [isFull_of_wholePart (hreal hcontacts) hwhole, isFull_of_wholePart hcounted rfl]

/-! ## Queries that do not fail -/

/-- None of the bodies that are looked at is released. -/
def Intact (candidates : List (Candidate α)) : Prop :=
  ∀ a b, Candidate.pair a b ∈ candidates → (∃ c, a.content = .ok c) ∧ ∃ c, b.content = .ok c

omit [Scalar α] in
theorem Intact.exists_placedPairs {candidates : List (Candidate α)} (h : Intact candidates) :
    ∃ pairs, placedPairs candidates = .ok pairs := by
  induction candidates with
  | nil => exact ⟨[], rfl⟩
  | cons candidate rest ih =>
    obtain ⟨pairs, hpairs⟩ := ih fun a b hab => h a b (List.mem_cons_of_mem _ hab)
    cases candidate with
    | skipped first second why => exact ⟨pairs, hpairs⟩
    | pair a b =>
      obtain ⟨⟨ca, hca⟩, cb, hcb⟩ := h a b List.mem_cons_self
      have hof : PlacedPair.of a b = .ok ⟨a, b, ca, cb⟩ := PlacedPair.of_eq_ok.mpr ⟨hca, hcb, rfl, rfl⟩
      exact ⟨_, bind_eq_ok.mpr ⟨_, hof, bind_eq_ok.mpr ⟨pairs, hpairs, rfl⟩⟩⟩

omit [Scalar α] in
theorem intact_of_placedPairs {candidates : List (Candidate α)} {pairs : List (PlacedPair α)}
    (h : placedPairs candidates = .ok pairs) : Intact candidates := by
  intro a b hab
  induction candidates generalizing pairs with
  | nil => cases hab
  | cons candidate rest ih =>
    cases candidate with
    | skipped first second why =>
      rcases List.mem_cons.mp hab with heq | hab
      · cases heq
      · exact ih h hab
    | pair a' b' =>
      obtain ⟨p, hp, h⟩ := bind_eq_ok.mp h
      obtain ⟨ps, hps, -⟩ := bind_eq_ok.mp h
      rcases List.mem_cons.mp hab with heq | hab
      · cases heq
        obtain ⟨hca, hcb, -, -⟩ := PlacedPair.of_eq_ok.mp hp
        exact ⟨⟨_, hca⟩, _, hcb⟩
      · exact ih hps hab

/-- A query on bodies that are not released does not fail, and its caps may as well be natural
    numbers. -/
theorem failure_run [LawfulScalar α] {candidates : List (Candidate α)} (h : Intact candidates)
    (hvalid : request.validate = .ok ()) (hreal : request.contacts = true → ∀ x, request.maxContacts ≠ .real x)
    (result : CollisionResult α) (events : Array (Event α)) :
    (run request candidates result events).failure = none ∧
      run request candidates result events = run request.counted candidates result events := by
  obtain ⟨pairs, hpairs⟩ := h.exists_placedPairs
  have hcongr := run_congr (alike_counted hvalid hreal) candidates result events
  have hcap : request.counted.maxContacts.int? = some (request.maxContacts.natural : Int) := rfl
  have hpair : request.counted.maxPerPair.int? = some (request.maxPerPair.natural : Int) := rfl
  have hgathers := run_gathers hcap hpair candidates hpairs result events
  exact ⟨hcongr ▸ hgathers.failure, hcongr⟩

end Check

namespace Check

/-! ## Caps with a fraction -/

variable {request : CollisionRequest α}

/-- A query that wants contacts fails after it has told of a collision, if the contacts cannot be
    counted. -/
theorem pair_of_room_error {a b : PlacedBody α} {p : PlacedPair α} (hp : PlacedPair.of a b = .ok p)
    (hcounts : counts request p = true) (hcontacts : request.contacts = true) {r : CollisionResult α} {f : Fault}
    (hroom : room request { seen request r p with collision := true } p.key (collidingHits p.hits).length = .error f) :
    ∃ events, pair request r a b = ({ seen request r p with collision := true }, events, .fail (.fault f)) := by
  have hrecord : record request (seen request r p) p p.hits =
      ({ seen request r p with collision := true }, .fail (.fault f)) := by
    unfold record
    simp only [hcontacts, Bool.not_true, Bool.false_eq_true, if_false]
    rw [hroom]
  obtain ⟨events, hpair⟩ := pair_eq_record hp hcounts r
  exact ⟨events, by rw [hpair, hrecord]⟩

/-- A cap with a fraction cannot count contacts where it is smaller than what a pair may have, and
    there are as many contacts as it allows. -/
theorem room_eq_error {request : CollisionRequest ℝ} {x : ℝ} {k : ℤ} {r : CollisionResult ℝ}
    {key : String × String} {found : ℕ} (hcap : request.maxContacts = .real x) (hk : request.perPair = .ok k)
    (hpos : r.contactCount < x) (hpair : x - r.contactCount < k - r.held key) (hfound : x - r.contactCount ≤ found) :
    room request r key found = .error .kind := by
  have hdecides : (Scalar.lt (x - Scalar.ofInt (r.contactCount : ℤ)) (Scalar.ofInt (k - (r.held key : ℤ))) &&
      !Scalar.lt (Scalar.ofInt (found : ℤ)) (x - Scalar.ofInt (r.contactCount : ℤ))) = true := by
    rw [Bool.and_eq_true, Bool.not_eq_true', ← Bool.not_eq_true, Exact.lt_iff, Exact.lt_iff]
    simp only [Exact.ofInt_eq, Int.cast_sub, Int.cast_natCast, not_lt]
    exact ⟨hpair, hfound⟩
  have hleft : Scalar.lt (0 : ℝ) (x - Scalar.ofInt (r.contactCount : ℤ)) = true := by
    simpa using hpos
  rw [← Exact.zero_eq] at hleft
  unfold room
  rw [hk, hcap]
  exact (if_pos hdecides).trans (if_pos hleft)

end Check

/-! ## Queries of checkers -/

open Check (Intact)

variable {models : List (RobotModel α)} {hand : List Nat} {s : Checkers α} {c : RobotChecker α}
  {w : WorldChecker α} {m : RobotModel α} {poses : LinkPoses α} {request : CollisionRequest α}
  {result : CollisionResult α} {bodies : List (PlacedBody α)} {allowed : Option AllowedCollisions}

omit [Scalar α] in
theorem RobotChecker.candidate_eq_pair {a b a' b' : PlacedBody α} :
    c.candidate allowed a b = .pair a' b' ↔ c.skip? allowed a b = none ∧ a = a' ∧ b = b' := by
  unfold RobotChecker.candidate
  cases c.skip? allowed a b with
  | none => simp
  | some why => simp

omit [Scalar α] in
theorem RobotChecker.mem_candidates {a b : PlacedBody α} :
    Candidate.pair a b ∈ c.candidates allowed bodies ↔
      (a, b) ∈ RobotModel.pairs bodies ∧ c.skip? allowed a b = none := by
  unfold RobotChecker.candidates
  rw [List.mem_map]
  constructor
  · rintro ⟨⟨a', b'⟩, hmem, h⟩
    obtain ⟨hskip, rfl, rfl⟩ := RobotChecker.candidate_eq_pair.mp h
    exact ⟨hmem, hskip⟩
  · rintro ⟨hmem, hskip⟩
    exact ⟨(a, b), hmem, RobotChecker.candidate_eq_pair.mpr ⟨hskip, rfl, rfl⟩⟩

omit [Scalar α] in
theorem RobotChecker.intact_candidates (h : ∀ b ∈ bodies, ∃ content, b.content = .ok content) :
    Intact (c.candidates allowed bodies) := by
  intro a b hab
  obtain ⟨ha, hb⟩ := RobotModel.mem_of_mem_pairs (RobotChecker.mem_candidates.mp hab).1
  exact ⟨h a ha, h b hb⟩

omit [Scalar α] in
theorem WorldChecker.mem_of_mem_candidates {objects : List (PlacedBody α)} {a b : PlacedBody α}
    (h : Candidate.pair a b ∈ WorldChecker.candidates allowed bodies objects) : a ∈ bodies ∧ b ∈ objects := by
  obtain ⟨a', ha, h⟩ := List.mem_flatMap.mp h
  obtain ⟨b', hb, h⟩ := List.mem_map.mp h
  unfold WorldChecker.candidate at h
  cases hskip : WorldChecker.skip? allowed a' b' with
  | none =>
    rw [hskip] at h
    cases h
    exact ⟨ha, hb⟩
  | some why =>
    rw [hskip] at h
    cases h

/-- Obstacles can be placed, wherever they are. -/
theorem WorldChecker.exists_placed {inv : Inventory α} (hposed : inv.Posed) (w : WorldChecker α) :
    ∃ objects, w.placed inv = .ok objects ∧ ∀ o ∈ objects, ∃ id ∈ w.held, inv.body? id = some o.body := by
  have hplace : ∀ id, ∃ o, WorldChecker.placeObject inv id = .ok o ∧
      ∀ b, o = some b → inv.body? id = some b.body := by
    intro id
    unfold WorldChecker.placeObject
    cases hb : inv.body? id with
    | none => exact ⟨none, rfl, fun _ h => nomatch h⟩
    | some body =>
      dsimp only
      cases hrole : body.role with
      | link => exact ⟨none, rfl, fun _ h => nomatch h⟩
      | attached => exact ⟨none, rfl, fun _ h => nomatch h⟩
      | obstacle pose =>
        refine ⟨_, map_eq_ok.mpr ⟨pose, hposed id body pose hb hrole, rfl⟩, ?_⟩
        rintro b ⟨⟩
        rfl
  obtain ⟨os, hos⟩ := exists_mapM fun id (_ : id ∈ w.objects.values) =>
    (hplace id).imp fun o ho => ho.1
  refine ⟨_, map_eq_ok.mpr ⟨os, hos, rfl⟩, fun o ho => ?_⟩
  obtain ⟨o', ho', rfl⟩ := List.mem_filterMap.mp ho
  obtain ⟨id, hid, h⟩ := exists_of_mem_mapM hos ho'
  obtain ⟨o'', h', hbody⟩ := hplace id
  cases h.symm.trans h'
  exact ⟨id, hid, hbody o rfl⟩

namespace Checkers

/-- The placed bodies of links have their contents unless they were released by hand. -/
theorem Kept.content_of_marked (hs : s.Kept models hand) (hc : c ∈ s.robots) {links : List String}
    (hhand : ∀ link ∈ links, ∀ id ∈ c.bodiesOf link, id ∉ hand) :
    ∀ b ∈ (c.marked s.inventory poses links).map Prod.snd, ∃ content, b.content = .ok content := by
  intro b hb
  obtain ⟨e, he, rfl⟩ := List.mem_map.mp hb
  exact hs.exists_content hc hhand he

theorem Kept.content_of_requested (hs : s.Kept models hand) (hc : c ∈ s.robots)
    (hhand : ∀ id ∈ c.held, id ∉ hand) (hbodies : c.requested s.inventory m poses request = .ok bodies) :
    ∀ b ∈ bodies, ∃ content, b.content = .ok content := by
  obtain ⟨_, -, h⟩ := bind_eq_ok.mp hbodies
  obtain ⟨links, -, h⟩ := bind_eq_ok.mp h
  obtain ⟨-, rfl⟩ := RobotChecker.placed_eq_ok.mp h
  exact hs.content_of_marked hc fun link _ id hid => hhand id (RobotChecker.mem_held_of_mem_bodiesOf hid)

theorem Kept.content_of_object (hs : s.Kept models hand) (hw : w ∈ s.worlds) (hhand : ∀ id ∈ w.held, id ∉ hand)
    {o : PlacedBody α} {id : Nat} (hid : id ∈ w.held) (hbody : s.inventory.body? id = some o.body) :
    ∃ content, o.content = .ok content := by
  have hheld : id ∈ s.held := List.mem_append_right _ (List.mem_flatMap_of_mem hw hid)
  obtain ⟨b, hb, hreleased⟩ := hs.released id hheld
  cases hbody.symm.trans hb
  cases hcontent : o.body.content with
  | none => exact absurd (hreleased (by rw [Body.isReleased, hcontent]; rfl)) (hhand id hid)
  | some content => exact ⟨content, PlacedBody.content_eq_ok.mpr hcontent⟩

theorem Kept.intact_world (hs : s.Kept models hand) (hc : c ∈ s.robots) (hrobot : ∀ id ∈ c.held, id ∉ hand)
    (hw : w ∈ s.worlds) (hworld : ∀ id ∈ w.held, id ∉ hand)
    (hbodies : c.requested s.inventory m poses request = .ok bodies) (allowed : Option AllowedCollisions) :
    ∃ objects, w.placed s.inventory = .ok objects ∧ Intact (WorldChecker.candidates allowed bodies objects) := by
  obtain ⟨objects, hobjects, hplaces⟩ := WorldChecker.exists_placed hs.posed w
  refine ⟨objects, hobjects, fun a b hab => ?_⟩
  obtain ⟨ha, hb⟩ := WorldChecker.mem_of_mem_candidates hab
  obtain ⟨id, hid, hbody⟩ := hplaces b hb
  exact ⟨hs.content_of_requested hc hrobot hbodies a ha, hs.content_of_object hw hworld hid hbody⟩

/-- What is served: a query that does not fail and comes to the same with caps that are natural
    numbers. -/
structure Served (check : CollisionRequest α → Check α) (request : CollisionRequest α) : Prop where
  failure : (check request).failure = none
  counted : check request = check request.counted

/-- The ways in which a query can go: its bodies are placed and it is served, or they are not and it
    leaves the result as it was. -/
inductive Serving (check : CollisionRequest α → Check α) (request : CollisionRequest α)
    (result : CollisionResult α) : Except (Error α) (List (PlacedBody α)) → Prop where
  | served {bodies : List (PlacedBody α)} : Served check request → Serving check request result (.ok bodies)
  | refused {e : Error α} : check request = Check.refused result e → Serving check request result (.error e)

theorem Serving.result_eq {check : CollisionRequest α → Check α} {placed : Except (Error α) (List (PlacedBody α))}
    (h : Serving check request result placed) {e : Error α} (he : (check request).failure = some e) :
    (check request).result = result := by
  cases h with
  | served h =>
    rw [h.failure] at he
    cases he
  | refused h =>
    rw [h]
    rfl

/-- A query that is a run on the same candidates for every accepted request on a group. -/
theorem Served.of_run [LawfulScalar α] {check : CollisionRequest α → Check α} {candidates : List (Candidate α)}
    (hvalid : request.validate = .ok ()) (hreal : request.contacts = true → ∀ x, request.maxContacts ≠ .real x)
    (hintact : Intact candidates) (result : CollisionResult α)
    (hcheck : ∀ r, r.validate = .ok () → r.group = request.group → check r = Check.run r candidates result #[]) :
    Served check request := by
  obtain ⟨hfailure, heq⟩ := Check.failure_run hintact hvalid hreal result #[]
  have hrequest := hcheck request hvalid rfl
  have hcounted := hcheck request.counted request.validate_counted rfl
  refine ⟨?_, ?_⟩
  · rw [hrequest, hfailure]
  · rw [hrequest, hcounted, heq]

theorem requested_congr {inv : Inventory α} {r : CollisionRequest α} (hvalid : request.validate = .ok ())
    (hr : r.validate = .ok ()) (hgroup : r.group = request.group) :
    c.requested inv m poses r = c.requested inv m poses request := by
  unfold RobotChecker.requested
  rw [hr, hvalid, hgroup]

theorem Kept.serving_self [LawfulScalar α] (hs : s.Kept models hand) (hc : c ∈ s.robots)
    (hrobot : ∀ id ∈ c.held, id ∉ hand)
    (hreal : request.validate = .ok () → request.contacts = true → ∀ x, request.maxContacts ≠ .real x)
    (m : RobotModel α) (poses : LinkPoses α) (allowed : Option AllowedCollisions) (result : CollisionResult α) :
    Serving (fun r => c.check s.inventory m poses allowed r result) request result
      (c.requested s.inventory m poses request) := by
  cases hbodies : c.requested s.inventory m poses request with
  | error e => exact .refused (by simp only [RobotChecker.check, hbodies])
  | ok bodies =>
    obtain ⟨_, hvalid, -⟩ := bind_eq_ok.mp hbodies
    have hintact : Intact (c.candidates allowed bodies) :=
      RobotChecker.intact_candidates (hs.content_of_requested hc hrobot hbodies)
    refine .served (.of_run hvalid (hreal hvalid) hintact result fun r hr hgroup => ?_)
    simp only [RobotChecker.check, requested_congr hvalid hr hgroup, hbodies]

theorem Kept.serving_world [LawfulScalar α] (hs : s.Kept models hand) (hc : c ∈ s.robots)
    (hrobot : ∀ id ∈ c.held, id ∉ hand) (hw : w ∈ s.worlds) (hworld : ∀ id ∈ w.held, id ∉ hand)
    (hreal : request.validate = .ok () → request.contacts = true → ∀ x, request.maxContacts ≠ .real x)
    (m : RobotModel α) (poses : LinkPoses α) (allowed : Option AllowedCollisions) (result : CollisionResult α) :
    Serving (fun r => w.check s.inventory c m poses allowed r result) request result
      (c.requested s.inventory m poses request) := by
  cases hbodies : c.requested s.inventory m poses request with
  | error e => exact .refused (by simp only [WorldChecker.check, hbodies])
  | ok bodies =>
    obtain ⟨_, hvalid, -⟩ := bind_eq_ok.mp hbodies
    obtain ⟨objects, hobjects, hintact⟩ := hs.intact_world hc hrobot hw hworld hbodies allowed
    refine .served (.of_run hvalid (hreal hvalid) hintact result fun r hr hgroup => ?_)
    simp only [WorldChecker.check, requested_congr hvalid hr hgroup, hbodies, hobjects]

/-- The links of a group can be placed in every state of a model with the links that the checker was made
    for. -/
theorem Kept.canPlace (hs : s.Kept models hand) {i : ℕ} (hc : s.robots[i]? = some c) {made : RobotModel α}
    (hmade : models[i]? = some made) (hm : m.Grown) (hsame : m.links = made.links) {root : PoseSource α}
    {past : List (RobotState.Action α)} {st : RobotState α} (hst : RobotState.Run m root past st)
    {name : Option String} {links : List String} (hlinks : RobotChecker.group m name = .ok links) :
    c.CanPlace (st.linkPose m) links := by
  have hfits : c.Fits m.linkNames := by
    rw [RobotModel.linkNames, hsame]
    exact hs.fits.fits i c made hc hmade
  exact hfits.canPlace (RobotState.stands_of_run hm.keyed hst) (hm.mem_linkNames_of_group hlinks)

/-- A request that is accepted is served, on every robot and in every world that came about, in every
    state of the model, if its group is known: neither query fails, and both come to the same as with
    caps that are natural numbers. A query that fails leaves the result as it was. This needs that an
    accepted cap on all contacts is not written with a fraction where contacts are wanted, and that
    nobody released a body of these checkers by hand. -/
theorem served_of_comes [LawfulScalar α] {settings : Settings α} (h : Comes settings models hand s)
    (i : ℕ) (c : RobotChecker α) (hc : s.robots[i]? = some c) (made : RobotModel α)
    (hmade : models[i]? = some made) (w : WorldChecker α) (hw : w ∈ s.worlds) (m : RobotModel α)
    (hm : m.Grown) (hsame : m.links = made.links) (root : PoseSource α)
    (past : List (RobotState.Action α)) (st : RobotState α) (hst : RobotState.Run m root past st)
    (hrobot : ∀ id ∈ c.held, id ∉ hand) (hworld : ∀ id ∈ w.held, id ∉ hand)
    (allowed : Option AllowedCollisions) (request : CollisionRequest α)
    (hreal : request.validate = .ok () → request.contacts = true → ∀ x, request.maxContacts ≠ .real x)
    (result : CollisionResult α) :
    let self := fun r => c.check s.inventory m (st.linkPose m) allowed r result
    let world := fun r => w.check s.inventory c m (st.linkPose m) allowed r result
    (∀ links, request.validate = .ok () → RobotChecker.group m request.group = .ok links →
      Served self request ∧ Served world request) ∧
      (∀ e, (self request).failure = some e → (self request).result = result) ∧
      ∀ e, (world request).failure = some e → (world request).result = result := by
  intro self world
  have hs := kept_of_comes h
  have hmem : c ∈ s.robots := List.mem_of_getElem? hc
  have hself := hs.serving_self hmem hrobot hreal m (st.linkPose m) allowed result
  have hother := hs.serving_world hmem hrobot hw hworld hreal m (st.linkPose m) allowed result
  refine ⟨fun links hvalid hlinks => ?_, fun e => hself.result_eq, fun e => hother.result_eq⟩
  rw [requested_of_canPlace hvalid hlinks (hs.canPlace hc hmade hm hsame hst hlinks)] at hself hother
  cases hself with
  | served hself =>
    cases hother with
    | served hother => exact ⟨hself, hother⟩

/-! ## Two cubes that overlap -/

section Cubes

variable {base tool : Body ℝ} {inside outside : BodyContent ℝ} {inv : Inventory ℝ}

/-- The two cubes as a pair. -/
noncomputable def cubesPair (base tool : Body ℝ) (inside outside : BodyContent ℝ) : PlacedPair ℝ :=
  ⟨placedBase base, placedTool tool, inside, outside⟩

theorem of_cubes (hbase : IsCube base "base" inside) (htool : IsCube tool "tool" outside) :
    PlacedPair.of (placedBase base) (placedTool tool) = .ok (cubesPair base tool inside outside) :=
  PlacedPair.of_eq_ok.mpr
    ⟨PlacedBody.content_eq_ok.mpr hbase.owned, PlacedBody.content_eq_ok.mpr htool.owned, rfl, rfl⟩

/-- In the middle of a cube its field is negative. -/
theorem IsCube.sample_neg {b : Body ℝ} {name : String} {content : BodyContent ℝ} (h : IsCube b name content) :
    (content.field.sample ⟨0, 0, 0⟩).1 < 0 := by
  have hposes : FieldPlan.alignPoses 1 (some [.pose Pose.origin]) = (.ok [Pose.origin] : Except (Error ℝ) _) :=
    mapM_eq_ok.mpr (.cons Pose.toPose_origin .nil)
  have hsolid : AreSolid [⟨DistanceField.cube, .origin⟩] := by
    intro s hs
    obtain rfl := List.mem_singleton.mp hs
    exact ⟨trivial, Pose.isRigid_origin⟩
  have hfield : (DistanceField.ofShapes .standard ([DistanceField.cube].map .shape) (some [.pose .origin])
      DistanceField.cubeGrid).1 = .ok content.field := h.field
  obtain ⟨g, hg⟩ := DistanceField.exists_isFieldOf hfield hposes hsolid
  refine hg.neg_of_deep hsolid (List.mem_singleton_self _) (d := -4) ?_ ?_
  · rw [Pose.rowToLocal_origin]
    exact DistanceField.signedDistances_cube
  · rw [h.resolution]
    nlinarith [Real.sq_sqrt (show (0 : ℝ) ≤ 3 by norm_num), Real.sqrt_nonneg 3]

/-- A cube with a corner in the middle of another cube collides with it. -/
theorem collides_of_corner {a b : PlacedBody ℝ} {ca cb : BodyContent ℝ} (ha : a.pose = .origin)
    (hb : b.pose = mountPose) (hneg : (ca.field.sample ⟨0, 0, 0⟩).1 < 0) (hcorner : ⟨-4, -4, -4⟩ ∈ cb.samples) :
    collides (Scalar.minimum ((⟨a, b, ca, cb⟩ : PlacedPair ℝ).hits.map Hit.distance)) = true := by
  refine collides_minimum_iff.mpr ⟨(ca.field.sample ⟨0, 0, 0⟩).1, ?_, hneg.le⟩
  have hmiddle : mountPose.toMotion.applyRow ⟨-4, -4, -4⟩ = ⟨0, 0, 0⟩ := by
    simp [mountPose, Motion.applyRow, Pose.toMotion, Mat3.vecMul, Mat3.identity, Mat3.transpose]
  rw [PlacedPair.hits, List.map_append, PlacedPair.distances_oriented, List.mem_append]
  refine .inl (List.mem_map.mpr ⟨_, List.mem_map.mpr ⟨_, hcorner, rfl⟩, ?_⟩)
  show (ca.field.sample (a.pose.rowToLocal (b.pose.toMotion.applyRow ⟨-4, -4, -4⟩))).1 = _
  rw [ha, hb, Pose.rowToLocal_origin, hmiddle]

/-- The corner of the tool in the middle of the base makes the cubes collide. -/
theorem collides_cubes (hbase : IsCube base "base" inside) (htool : IsCube tool "tool" outside) :
    collides (Scalar.minimum ((cubesPair base tool inside outside).hits.map Hit.distance)) = true :=
  collides_of_corner rfl rfl hbase.sample_neg htool.corner

/-- The two cubes are looked at. -/
theorem requested_cubes (hbase : IsCube base "base" inside) (htool : IsCube tool "tool" outside)
    (hbodies : inv.bodies = #[base, tool]) {m : RobotModel ℝ} {request : CollisionRequest ℝ}
    (hvalid : request.validate = .ok ()) (hlinks : RobotChecker.group m request.group = .ok ["base", "tool"]) :
    cubesChecker.requested inv m (cubesState.linkPose m) request = .ok [placedBase base, placedTool tool] := by
  refine (requested_of_canPlace hvalid hlinks (canPlace_cubes m (by simp))).trans (congrArg Except.ok ?_)
  simp [RobotChecker.marked, markedOn_base hbase hbodies, markedOn_tool htool hbodies]

theorem candidates_cubes : cubesChecker.candidates none [placedBase base, placedTool tool] =
    [.pair (placedBase base) (placedTool tool)] := rfl

/-- A request for three contacts, two of a pair; the latter is written with a fraction. -/
noncomputable def threeContacts : CollisionRequest ℝ := ⟨none, true, .int 3, .real 2, false, false⟩

/-- The request for three contacts is served on the two cubes. -/
theorem served_of_comes_cubes : ∃ inv,
    let request := threeContacts
    Comes .standard [cubes] [] ⟨inv, [cubesChecker], [WorldChecker.empty aloneParams]⟩ ∧
    RobotState.Run cubes .absent [] cubesState ∧ request.validate = .ok () ∧
    RobotChecker.group cubes request.group = .ok ["base", "tool"] ∧
    (∀ x, request.maxContacts ≠ .real x) ∧
    Served (fun r => cubesChecker.check inv cubes (cubesState.linkPose cubes) none r .empty) request ∧
    Served (fun r => (WorldChecker.empty aloneParams).check inv cubesChecker cubes (cubesState.linkPose cubes) none
      r .empty) request := by
  obtain ⟨base, tool, inside, outside, inv, -, -, -, hmake⟩ := exists_make_cubes
  let request := threeContacts
  have hcomes : Comes .standard [cubes] [] ⟨inv, [cubesChecker], [WorldChecker.empty aloneParams]⟩ :=
    ⟨_, .world aloneParams (recorded_cubes hmake) trivial⟩
  have hrun : RobotState.Run cubes .absent [] cubesState := .start atDefaults_cubes
  have hvalid : request.validate = .ok () := by
    refine CollisionRequest.validate_eq_ok.mpr ⟨rfl, CollisionRequest.checkCap_eq_ok.mpr ⟨2, ?_, ?_⟩⟩
    · simp [request, threeContacts, CollisionRequest.wholePart]
    · simp [request, threeContacts, CollisionRequest.isNatural, Exact.eq_iff]
  have hreal : ∀ x, request.maxContacts ≠ .real x := fun _ h => nomatch h
  obtain ⟨hserved, -, -⟩ := served_of_comes hcomes 0 cubesChecker rfl cubes rfl (WorldChecker.empty aloneParams)
    (List.mem_singleton_self _) cubes grown_cubes rfl .absent [] cubesState hrun (by simp) (by simp) none request
    (fun _ _ => hreal) .empty
  obtain ⟨hself, hworld⟩ := hserved ["base", "tool"] hvalid rfl
  exact ⟨inv, hcomes, hrun, hvalid, rfl, hreal, hself, hworld⟩

/-- A request for one contact, written with a fraction, and the least distance. -/
noncomputable def oneContact : CollisionRequest ℝ := ⟨none, true, .real 1, .int 5, false, true⟩

/-- An accepted cap that is written with a fraction makes a query fail, after it has told of a
    collision. -/
theorem exists_unserved : ∃ inv,
    let request := oneContact
    let check := cubesChecker.check inv cubes (cubesState.linkPose cubes) none request .empty
    Comes .standard [cubes] [] ⟨inv, [cubesChecker], []⟩ ∧ RobotState.Run cubes .absent [] cubesState ∧
    request.validate = .ok () ∧ RobotChecker.group cubes request.group = .ok ["base", "tool"] ∧
    check.failure = some (.fault .kind) ∧ check.result.collision = true := by
  obtain ⟨base, tool, inside, outside, inv, hbase, htool, hbodies, hmake⟩ := exists_make_cubes
  let request := oneContact
  have hvalid : request.validate = .ok () := by
    refine CollisionRequest.validate_eq_ok.mpr ⟨CollisionRequest.checkCap_eq_ok.mpr ⟨1, ?_, ?_⟩, rfl⟩
    · simp [request, oneContact, CollisionRequest.wholePart]
    · simp [request, oneContact, CollisionRequest.isNatural, Exact.eq_iff]
  let p := cubesPair base tool inside outside
  have hcollides : collides (Scalar.minimum (p.hits.map Hit.distance)) = true := collides_cubes hbase htool
  have hfound : (1 : ℝ) ≤ (Check.collidingHits p.hits).length :=
    Nat.one_le_cast.mpr (List.length_pos_iff.mpr (Check.collides_hits_iff.mp hcollides).1)
  -- The pair may have more contacts than are wanted, so the cap decides.
  have hroom : ∀ told : CollisionResult ℝ, told.contactCount = 0 → told.held p.key = 0 →
      Check.room request told p.key (Check.collidingHits p.hits).length = .error .kind := by
    intro told hcount hheld
    refine Check.room_eq_error (x := 1) (k := 5) rfl rfl ?_ ?_ ?_
    · norm_num [hcount]
    · norm_num [hcount, hheld]
    · rw [hcount, Nat.cast_zero, sub_zero]
      exact hfound
  have hcount : (Check.seen request .empty p).contactCount = 0 := Check.seen_contactCount _ _
  have hheld : (Check.seen request .empty p).held p.key = 0 := by
    rw [CollisionResult.held, Check.seen_contacts]
    rfl
  have hcounts : Check.counts request p = true := hcollides
  obtain ⟨events, hpair⟩ := Check.pair_of_room_error (of_cubes hbase htool) hcounts rfl
    (hroom { Check.seen request .empty p with collision := true } hcount hheld)
  have hcheck : cubesChecker.check inv cubes (cubesState.linkPose cubes) none request .empty =
      ⟨{ Check.seen request .empty p with collision := true }, #[] ++ events.toArray, some (.fault .kind)⟩ := by
    have hlinks : RobotChecker.group cubes request.group = .ok ["base", "tool"] := rfl
    simp only [RobotChecker.check, requested_cubes hbase htool hbodies hvalid hlinks, candidates_cubes, Check.run,
      hpair]
    rfl
  refine ⟨inv, ⟨_, recorded_cubes hmake⟩, .start atDefaults_cubes, hvalid, rfl, ?_, ?_⟩
  · exact congrArg Check.failure hcheck
  · exact congrArg (fun check => check.result.collision) hcheck

end Cubes

end Checkers

end Clearance
