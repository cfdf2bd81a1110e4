import Clearance.Proofs.Collision.Serving

/-!
# How many contacts pairs get

A pair of bodies may have so many contacts, and those that it has are looked up by the names of the
bodies. So where several colliding pairs have the same names, they share what one of them may have:
under these names are the first contacts of all these pairs, one pair after the other.

* `Check.under`, `Check.under_foldl_enter`: the contacts under a pair of names.
* `Check.contactsOf`: the contacts that a pair has, the deepest first.
* `Check.under_run`: the contacts under a pair of names after a query that has room for all.
* `Checkers.shares_of_comes`: the queries of robot checkers and worlds that came about.
-/

namespace Clearance

namespace Check

variable {α : Type}

/-! ## Contacts under a pair of names -/

/-- Whether a contact tells of bodies of these names. -/
def isAt (key : String × String) (c : Contact (Vec3 α) α) : Bool := (c.first, c.second) = key

/-- The contacts that a table holds under a key. -/
def under (t : ContactTable α) (key : String × String) : List (Contact (Vec3 α) α) := (t.find? key).getD []

@[simp] theorem under_empty (key : String × String) : under (Table.empty : ContactTable α) key = [] := rfl

theorem length_under (t : ContactTable α) (key : String × String) : (under t key).length = heldIn t key := rfl

theorem under_enter (t : ContactTable α) (c : Contact (Vec3 α) α) (key : String × String) :
    under (enter t c) key = under t key ++ [c].filter (isAt key) := by
  unfold under enter isAt
  rw [Table.find?_set]
  by_cases h : (c.first, c.second) = key
  · subst h
    simp
  · simp [h]

/-- Contacts are entered at the end of the lists under their names. -/
theorem under_foldl_enter (cs : List (Contact (Vec3 α) α)) (t : ContactTable α) (key : String × String) :
    under (cs.foldl enter t) key = under t key ++ cs.filter (isAt key) := by
  induction cs generalizing t with
  | nil => exact (List.append_nil _).symm
  | cons c rest ih =>
    rw [List.foldl_cons, ih, under_enter, List.append_assoc, ← List.filter_append]
    rfl

/-! ## The contacts that pairs have -/

variable [Scalar α]

/-- The contacts that a pair has, the deepest first. -/
def contactsOf (p : PlacedPair α) : List (Contact (Vec3 α) α) := (collidingHits p.hits).map (contactAt p)

theorem filter_map_contactAt (p : PlacedPair α) (hits : List (Hit α)) (key : String × String) :
    (hits.map (contactAt p)).filter (isAt key) = if p.key = key then hits.map (contactAt p) else [] := by
  have hat : ∀ c ∈ hits.map (contactAt p), isAt key c = decide (p.key = key) := by
    intro c hc
    obtain ⟨h, -, rfl⟩ := List.mem_map.mp hc
    rfl
  rw [List.filter_congr hat]
  split
  · rw [decide_eq_true ‹_›, List.filter_true]
  · rw [decide_eq_false ‹_›, List.filter_false]

theorem length_collidingPlaces (distances : List α) :
    (collidingPlaces distances).length = distances.countP fun d => Scalar.le d 0 := by
  show (List.map Prod.fst (List.mergeSort (collidingEntries distances) _)).length = _
  have hsnd : ((List.range distances.length).zip distances).map Prod.snd = distances :=
    List.map_snd_zip (by rw [List.length_range])
  rw [List.length_map, List.length_mergeSort, collidingEntries, ← List.countP_eq_length_filter]
  conv_rhs => rw [← hsnd, List.countP_map]
  rfl

/-- A pair has a contact for each of its samples whose distance is not positive. -/
theorem length_collidingHits (hits : List (Hit α)) :
    (collidingHits hits).length = hits.countP fun h => Scalar.le h.distance 0 := by
  have hall : (collidingHits hits).length = (collidingPlaces (hits.map Hit.distance)).length := by
    show (List.filterMap (fun i => hits.toArray[i]?) _).length = _
    simp only [List.getElem?_toArray]
    rw [List.length_filterMap_eq_countP]
    exact List.countP_eq_length.mpr fun i hi => isSome_of_mem_collidingPlaces hi
  rw [hall, length_collidingPlaces, List.countP_map]
  rfl

theorem length_contactsOf (p : PlacedPair α) :
    (contactsOf p).length = p.hits.countP fun h => Scalar.le h.distance 0 := by
  rw [contactsOf, List.length_map, length_collidingHits]

variable [LawfulScalar α] {perPair : Int}

/-- Beside those that a table holds, a pair offers the first contacts that it has. -/
theorem fresh_eq_take (t : ContactTable α) (p : PlacedPair α) :
    fresh perPair depthPlaces t p = (contactsOf p).take (perPair - (heldIn t p.key : Int)).toNat := by
  rw [fresh_eq, contactsOf, List.map_take]

/-- Of all contacts that are offered under a key, the first ones are taken, whatever pairs they are
    of. -/
theorem filter_offered (pairs : List (PlacedPair α)) (t : ContactTable α) (key : String × String) :
    (offered perPair depthPlaces pairs t).filter (isAt key) =
      ((pairs.filter (·.key = key)).flatMap contactsOf).take (perPair - (heldIn t key : Int)).toNat := by
  induction pairs generalizing t with
  | nil => rw [offered, List.filter_nil, List.filter_nil, List.flatMap_nil, List.take_nil]
  | cons p rest ih =>
    have hheld : heldIn ((fresh perPair depthPlaces t p).foldl enter t) key =
        heldIn t key + ((fresh perPair depthPlaces t p).filter (isAt key)).length := by
      rw [← length_under, under_foldl_enter, List.length_append, length_under]
    have hfresh : (fresh perPair depthPlaces t p).filter (isAt key) =
        if p.key = key then (contactsOf p).take (perPair - (heldIn t key : Int)).toNat else [] := by
      rw [fresh_eq, filter_map_contactAt]
      split
      · subst key
        rw [contactsOf, List.map_take]
      · rfl
    rw [offered, List.filter_append, ih, hheld, hfresh]
    by_cases hkey : p.key = key
    · rw [if_pos hkey, List.filter_cons_of_pos (by simpa using hkey), List.flatMap_cons, List.take_append]
      congr 2
      rw [List.length_take]
      omega
    · rw [if_neg hkey, List.filter_cons_of_neg (by simpa using hkey)]
      rfl

theorem length_offered_le (perPair : Int) (pairs : List (PlacedPair α)) (t : ContactTable α) :
    (offered perPair depthPlaces pairs t).length ≤ (pairs.flatMap contactsOf).length := by
  induction pairs generalizing t with
  | nil => exact Nat.le_refl _
  | cons p rest ih =>
    rw [offered, List.flatMap_cons, List.length_append, List.length_append, fresh_eq_take, List.length_take]
    exact Nat.add_le_add (Nat.min_le_right _ _) (ih _)

variable {request : CollisionRequest α} {pairs : List (PlacedPair α)}

/-- A query that has room for all contacts adds under each pair of names the first contacts of the
    colliding pairs with these names. -/
theorem under_run {cap : Int} (hc : request.maxContacts.int? = some cap)
    (hk : request.maxPerPair.int? = some perPair) (hw : request.contacts = true)
    {candidates : List (Candidate α)} (hp : placedPairs candidates = .ok pairs) (old : CollisionResult α)
    (events : Array (Event α))
    (hroom : (((collidingPairs request pairs).flatMap contactsOf).length : Int) ≤ cap - (old.contactCount : Int))
    (key : String × String) :
    under (run request candidates old events).result.contacts key = under old.contacts key ++
      (((collidingPairs request pairs).filter (·.key = key)).flatMap contactsOf).take
        (max 1 perPair - (heldIn old.contacts key : Int)).toNat := by
  have hall : collected request cap (max 1 perPair) (collidingPairs request pairs) old =
      offered (max 1 perPair) depthPlaces (collidingPairs request pairs) old.contacts := by
    have hle := length_offered_le (max 1 perPair) (collidingPairs request pairs) old.contacts
    rw [collected, if_pos hw]
    exact List.take_of_length_le (by omega)
  rw [(run_gathers hc hk candidates hp old events).contacts, hall, under_foldl_enter, filter_offered]

/-! ## Shares -/

/-- How many contacts a pair has. -/
def contactCount (p : PlacedPair α) : Nat := p.hits.countP fun h => Scalar.le h.distance 0

theorem contactCount_pos {p : PlacedPair α} (h : p ∈ collidingPairs request pairs) : 0 < contactCount p := by
  obtain ⟨-, hcounts⟩ := List.mem_filter.mp h
  obtain ⟨⟨d, hd, hle⟩, -⟩ := verdict_iff.mp (Bool.and_eq_true_iff.mp hcounts).2
  obtain ⟨hit, hhit, rfl⟩ := List.mem_map.mp hd
  exact List.countP_pos_iff.mpr ⟨hit, hhit, hle⟩

theorem contactsOf_ne_nil {p : PlacedPair α} (h : p ∈ collidingPairs request pairs) : contactsOf p ≠ [] := by
  rw [← List.length_pos_iff, length_contactsOf]
  exact contactCount_pos h

omit [LawfulScalar α] in
theorem types_of_mem_contactsOf {p : PlacedPair α} {c : Contact (Vec3 α) α} (h : c ∈ contactsOf p) :
    (c.firstType, c.secondType) = p.types := by
  obtain ⟨hit, -, rfl⟩ := List.mem_map.mp h
  rfl

/-- What the colliding pairs of a query on a fresh result get. Under each pair of names are the first
    contacts of the colliding pairs with these names, as many as one pair may have. So a colliding pair
    whose names no other has gets as many of its deepest contacts as a pair may have, and at least
    one. -/
structure Shares (request : CollisionRequest α) (pairs : List (PlacedPair α)) (check : Check α) : Prop where
  failure : check.failure = none
  under : ∀ key, under check.result.contacts key =
    (((collidingPairs request pairs).filter (·.key = key)).flatMap contactsOf).take
      (max 1 request.maxPerPair.natural)
  alone : ∀ p, (collidingPairs request pairs).filter (·.key = p.key) = [p] →
    Check.under check.result.contacts p.key = (contactsOf p).take (max 1 request.maxPerPair.natural) ∧
      (Check.under check.result.contacts p.key).length =
        min (max 1 request.maxPerPair.natural) (contactCount p) ∧
      Check.under check.result.contacts p.key ≠ []

theorem shares_run (hvalid : request.validate = .ok ()) (hw : request.contacts = true)
    (hreal : ∀ x, request.maxContacts ≠ .real x) {candidates : List (Candidate α)}
    (hp : placedPairs candidates = .ok pairs) (events : Array (Event α))
    (hroom : ((collidingPairs request pairs).map contactCount).sum ≤ request.maxContacts.natural) :
    Shares request pairs (run request candidates .empty events) := by
  obtain ⟨hfailure, hcounted⟩ :=
    failure_run (intact_of_placedPairs hp) hvalid (fun _ => hreal) .empty events
  have hunder : ∀ key, under (run request candidates .empty events).result.contacts key =
      (((collidingPairs request pairs).filter (·.key = key)).flatMap contactsOf).take
        (max 1 request.maxPerPair.natural) := by
    intro key
    have hlength : ((collidingPairs request pairs).flatMap contactsOf).length =
        ((collidingPairs request pairs).map contactCount).sum := by
      rw [List.length_flatMap]
      exact congrArg List.sum (List.map_congr_left fun p _ => length_contactsOf p)
    have hcap : request.counted.maxContacts.int? = some (request.maxContacts.natural : Int) := rfl
    have hpair : request.counted.maxPerPair.int? = some (request.maxPerPair.natural : Int) := rfl
    rw [hcounted]
    refine (under_run hcap hpair hw hp .empty events ?_ key).trans ?_
    · show (((collidingPairs request pairs).flatMap contactsOf).length : Int) ≤ _ - ((0 : Nat) : Int)
      omega
    · have htake : (max 1 (request.maxPerPair.natural : Int) - ((0 : Nat) : Int)).toNat =
          max 1 request.maxPerPair.natural := by omega
      exact congrArg (List.take · _) htake
  refine ⟨hfailure, hunder, fun p hp => ?_⟩
  have hlist : under (run request candidates .empty events).result.contacts p.key =
      (contactsOf p).take (max 1 request.maxPerPair.natural) := by
    rw [hunder, hp, List.flatMap_singleton]
  have hlength := congrArg List.length hlist
  rw [List.length_take, length_contactsOf] at hlength
  refine ⟨hlist, hlength, fun hnil => ?_⟩
  have hpos : 0 < contactCount p := by
    have hmem : p ∈ (collidingPairs request pairs).filter (·.key = p.key) := hp ▸ List.mem_singleton_self p
    exact contactCount_pos (List.mem_filter.mp hmem).1
  have hzero : min (max 1 request.maxPerPair.natural) (contactCount p) = 0 := by
    rw [← show _ = min (max 1 request.maxPerPair.natural) (contactCount p) from hlength, hnil, List.length_nil]
  omega

/-- The only pair of a query gets all its contacts if there is room for them. -/
theorem under_run_alone (hvalid : request.validate = .ok ()) (hw : request.contacts = true)
    (hreal : ∀ x, request.maxContacts ≠ .real x) {candidates : List (Candidate α)} {p : PlacedPair α}
    (hp : placedPairs candidates = .ok [p]) (hcounts : counts request p = true) (events : Array (Event α))
    (hroom : contactCount p ≤ request.maxContacts.natural)
    (hper : contactCount p ≤ max 1 request.maxPerPair.natural) :
    under (run request candidates .empty events).result.contacts p.key = contactsOf p := by
  have hfound : collidingPairs request [p] = [p] := by
    rw [collidingPairs, List.filter_cons_of_pos hcounts, List.filter_nil]
  have hsum : ((collidingPairs request [p]).map contactCount).sum ≤ request.maxContacts.natural := by
    rw [hfound]
    exact hroom
  obtain ⟨hunder, -, -⟩ := (shares_run hvalid hw hreal hp events hsum).alone p (by rw [hfound]; simp)
  rw [hunder, List.take_of_length_le]
  rw [length_contactsOf]
  exact hper

end Check

namespace Checkers

variable {α : Type} [Scalar α] {models : List (RobotModel α)} {hand : List Nat} {s : Checkers α}

open Check (placedPairs collidingPairs contactCount Shares)

/-- On every robot and in every world that came about, in every state of the model, a request that wants
    contacts and whose group is known gets them from the pairs that are looked at, if there is room for
    those of all colliding pairs: under each pair of names are the first contacts of the colliding pairs
    with these names, as many as one pair may have, so that a colliding pair whose names no other has
    gets its share. -/
theorem shares_of_comes [LawfulScalar α] {settings : Settings α} (h : Comes settings models hand s)
    (i : ℕ) (c : RobotChecker α) (hc : s.robots[i]? = some c) (made : RobotModel α)
    (hmade : models[i]? = some made) (w : WorldChecker α) (hw : w ∈ s.worlds) (m : RobotModel α)
    (hm : m.Grown) (hsame : m.links = made.links) (root : PoseSource α)
    (past : List (RobotState.Action α)) (st : RobotState α) (hst : RobotState.Run m root past st)
    (hrobot : ∀ id ∈ c.held, id ∉ hand) (hworld : ∀ id ∈ w.held, id ∉ hand)
    (allowed : Option AllowedCollisions) (request : CollisionRequest α) (links : List String)
    (hvalid : request.validate = .ok ()) (hlinks : RobotChecker.group m request.group = .ok links)
    (hcontacts : request.contacts = true) (hreal : ∀ x, request.maxContacts ≠ .real x) :
    ∃ bodies objects own others,
      c.requested s.inventory m (st.linkPose m) request = .ok bodies ∧ w.placed s.inventory = .ok objects ∧
      placedPairs (c.candidates allowed bodies) = .ok own ∧
      placedPairs (WorldChecker.candidates allowed bodies objects) = .ok others ∧
      (((collidingPairs request own).map contactCount).sum ≤ request.maxContacts.natural →
        Shares request own (c.check s.inventory m (st.linkPose m) allowed request .empty)) ∧
      (((collidingPairs request others).map contactCount).sum ≤ request.maxContacts.natural →
        Shares request others (w.check s.inventory c m (st.linkPose m) allowed request .empty)) := by
  have hs := kept_of_comes h
  have hmem : c ∈ s.robots := List.mem_of_getElem? hc
  have hcan : c.CanPlace (st.linkPose m) links := hs.canPlace hc hmade hm hsame hst hlinks
  have hbodies : c.requested s.inventory m (st.linkPose m) request = .ok _ :=
    requested_of_canPlace hvalid hlinks hcan
  have hown : Check.Intact (c.candidates allowed _) :=
    RobotChecker.intact_candidates (hs.content_of_requested hmem hrobot hbodies)
  obtain ⟨own, hown⟩ := hown.exists_placedPairs
  obtain ⟨objects, hobjects, hintact⟩ := hs.intact_world hmem hrobot hw hworld hbodies allowed
  obtain ⟨others, hothers⟩ := hintact.exists_placedPairs
  refine ⟨_, objects, own, others, hbodies, hobjects, hown, hothers, fun hroom => ?_, fun hroom => ?_⟩
  · rw [RobotChecker.check, hbodies]
    exact Check.shares_run hvalid hcontacts hreal hown _ hroom
  · rw [WorldChecker.check, hbodies]
    dsimp only
    rw [hobjects]
    exact Check.shares_run hvalid hcontacts hreal hothers _ hroom

/-! ## Two cubes, and a third one in the place of the first -/

section Cubes

open DistanceField (cube)

/-- A request for the least distance and for so many contacts, one of each pair. -/
def oneOfEach (n : ℕ) : CollisionRequest ℝ := ⟨none, true, .int n, .int 1, false, true⟩

theorem validate_oneOfEach (n : ℕ) : (oneOfEach n).validate = .ok () := CollisionRequest.validate_counted (oneOfEach n)

theorem not_real_oneOfEach (n : ℕ) (x : ℝ) : (oneOfEach n).maxContacts ≠ .real x := by
  intro h
  cases h

section Pair

variable {base tool : Body ℝ} {inside outside : BodyContent ℝ} {inv : Inventory ℝ}

theorem placedPairs_cubes (hbase : IsCube base "base" inside) (htool : IsCube tool "tool" outside) :
    placedPairs (cubesChecker.candidates none [placedBase base, placedTool tool]) =
      .ok [cubesPair base tool inside outside] :=
  bind_eq_ok.mpr ⟨_, of_cubes hbase htool, rfl⟩

theorem collidingPairs_cubes (hbase : IsCube base "base" inside) (htool : IsCube tool "tool" outside) (n : ℕ) :
    collidingPairs (oneOfEach n) [cubesPair base tool inside outside] = [cubesPair base tool inside outside] := by
  have hcounts : Check.counts (oneOfEach n) (cubesPair base tool inside outside) = true := collides_cubes hbase htool
  rw [collidingPairs, List.filter_cons_of_pos hcounts, List.filter_nil]

theorem key_cubes : (cubesPair base tool inside outside).key = ("base", "tool") :=
  (by decide : pairKey "base" "tool" = ("base", "tool"))

/-- A colliding pair that is alone gets one contact, if there is room for all. -/
theorem length_under_cubes (hbase : IsCube base "base" inside) (htool : IsCube tool "tool" outside) {n : ℕ}
    {check : Check ℝ} (h : Shares (oneOfEach n) [cubesPair base tool inside outside] check) :
    (Check.under check.result.contacts ("base", "tool")).length = 1 := by
  have hfound := collidingPairs_cubes hbase htool n
  obtain ⟨-, hlength, hne⟩ := h.alone (cubesPair base tool inside outside) (by simp [hfound])
  rw [key_cubes] at hlength hne
  exact Nat.le_antisymm (hlength.trans_le (Nat.min_le_left _ _)) (List.length_pos_iff.mpr hne)

theorem room_cubes (hbase : IsCube base "base" inside) (htool : IsCube tool "tool" outside) :
    let p := cubesPair base tool inside outside
    let request := oneOfEach (contactCount p)
    ((collidingPairs request [p]).map contactCount).sum ≤ request.maxContacts.natural := by
  intro p request
  rw [collidingPairs_cubes hbase htool]
  exact Nat.le_of_eq (Nat.add_zero _)

/-- A query on the two cubes finds a contact. -/
theorem exists_under_cubes (hbase : IsCube base "base" inside) (htool : IsCube tool "tool" outside)
    (hbodies : inv.bodies = #[base, tool]) : ∃ n c,
      c ∈ Check.under (cubesChecker.check inv cubes (cubesState.linkPose cubes) none (oneOfEach n) .empty).result.contacts
        ("base", "tool") := by
  let request := oneOfEach (contactCount (cubesPair base tool inside outside))
  have hvalid : request.validate = .ok () := validate_oneOfEach _
  have hshares := Check.shares_run hvalid rfl (not_real_oneOfEach _) (placedPairs_cubes hbase htool) #[]
    (room_cubes hbase htool)
  have hcheck : cubesChecker.check inv cubes (cubesState.linkPose cubes) none request .empty =
      Check.run request (cubesChecker.candidates none [placedBase base, placedTool tool]) .empty #[] := by
    rw [RobotChecker.check, requested_cubes hbase htool hbodies hvalid rfl]
  rw [← hcheck] at hshares
  have hlength := length_under_cubes hbase htool hshares
  obtain ⟨c, hc⟩ := List.exists_mem_of_length_pos (Nat.lt_of_lt_of_eq Nat.one_pos hlength.symm)
  exact ⟨_, c, hc⟩

end Pair

/-- The two cubes get one contact. -/
theorem shares_of_comes_cubes : ∃ inv n,
    let request := oneOfEach n
    Comes .standard [cubes] [] ⟨inv, [cubesChecker], [WorldChecker.empty aloneParams]⟩ ∧
    RobotState.Run cubes .absent [] cubesState ∧ request.validate = .ok () ∧
    RobotChecker.group cubes request.group = .ok ["base", "tool"] ∧ request.contacts = true ∧
    (∀ x, request.maxContacts ≠ .real x) ∧
    (Check.under (cubesChecker.check inv cubes (cubesState.linkPose cubes) none request .empty).result.contacts
      ("base", "tool")).length = 1 := by
  obtain ⟨base, tool, inside, outside, inv, hbase, htool, hbodies, hmake⟩ := exists_make_cubes
  let request := oneOfEach (contactCount (cubesPair base tool inside outside))
  have hcomes : Comes .standard [cubes] [] ⟨inv, [cubesChecker], [WorldChecker.empty aloneParams]⟩ :=
    ⟨_, .world aloneParams (recorded_cubes hmake) trivial⟩
  have hrun : RobotState.Run cubes .absent [] cubesState := .start atDefaults_cubes
  have hvalid : request.validate = .ok () := validate_oneOfEach _
  have hreal : ∀ x, request.maxContacts ≠ .real x := not_real_oneOfEach _
  obtain ⟨bodies, objects, own, others, hrequested, -, hown, -, hself, -⟩ := shares_of_comes hcomes 0
    cubesChecker rfl cubes rfl (WorldChecker.empty aloneParams) (List.mem_singleton_self _) cubes grown_cubes rfl
    .absent [] cubesState hrun (by simp) (by simp) none request ["base", "tool"] hvalid rfl rfl hreal
  cases (requested_cubes hbase htool hbodies hvalid rfl).symm.trans hrequested
  cases (placedPairs_cubes hbase htool).symm.trans hown
  have hshares := hself (room_cubes hbase htool)
  exact ⟨inv, _, hcomes, hrun, hvalid, rfl, rfl, hreal, length_under_cubes hbase htool hshares⟩

/-- A cube that is to be attached to the base, in its place and under its name. -/
noncomputable def twin : Attachment ℝ := ⟨"base", [.shape cube], none, .ok []⟩

/-- The checker of the two cubes with the twin of the base. -/
noncomputable def twinnedChecker : RobotChecker ℝ :=
  cubesChecker.setGeometry ⟨"base", some 0, Table.empty.push "base" 2, aloneParams⟩

/-- The twin where it stands. -/
noncomputable def placedTwin (b : Body ℝ) : PlacedBody ℝ := ⟨"base", some "base", "robot_attached", b, .origin, []⟩

/-- The twin can be attached. -/
theorem exists_attach_twin : ∃ base double tool inside within outside inv, IsCube base "base" inside ∧
    IsCube { double with role := .link } "base" within ∧ double.role = .attached "base" [] ∧
    IsCube tool "tool" outside ∧ inv.bodies = #[base, tool, double] ∧
    Comes .standard [cubes] [] ⟨inv, [twinnedChecker], []⟩ := by
  obtain ⟨base, tool, inside, outside, inv, hbase, htool, hbodies, hsettings, hmake⟩ := exists_make_standard_cubes
  let g : LinkGeometry ℝ := ⟨"base", some 0, Table.empty, aloneParams⟩
  have hshapes : Inventory.placedShapes (g.source twin) = .ok [⟨cube, .origin⟩] := rfl
  have hrole : (g.source twin).role = .ok (.attached "base" []) := rfl
  obtain ⟨double, within, inv', hdouble, hattached, hbodies', -, hbuild⟩ :=
    exists_build_cube hshapes hrole inv hsettings
  let inv'' := inv'.noting (.bodyAttached "base" 1 "base")
  have hattach : (cubesChecker.attach "base" twin).run inv = (.ok (twinnedChecker, 2), inv'') := by
    rw [RobotChecker.run_attach, show cubesChecker.geometry "base" = .ok g from rfl]
    dsimp only
    rw [LinkGeometry.run_attach, hbuild, hbodies]
    rfl
  have hrecorded := recorded_cubes hmake
  have hstep : Checkers.step ⟨inv, [cubesChecker], []⟩ (.attach 0 "base" twin) = ⟨inv'', [twinnedChecker], []⟩ := by
    rw [step, onRobot, show [cubesChecker][0]? = some cubesChecker from rfl, Option.elim_some, after, hattach]
    rfl
  refine ⟨base, double, tool, inside, within, outside, inv'', hbase, hdouble, hattached, htool, ?_, ?_⟩
  · rw [show inv''.bodies = inv'.bodies from rfl, hbodies', hbodies]
    rfl
  · rw [← hstep]
    exact ⟨_, .step (.attach 0 "base" twin) hrecorded trivial⟩

/-- The base, its twin and the tool are looked at. -/
theorem requested_twinned {base double tool : Body ℝ} {inside within outside : BodyContent ℝ} {inv : Inventory ℝ}
    (hbase : IsCube base "base" inside) (hdouble : IsCube { double with role := .link } "base" within)
    (hattached : double.role = .attached "base" []) (htool : IsCube tool "tool" outside)
    (hbodies : inv.bodies = #[base, tool, double]) {request : CollisionRequest ℝ}
    (hvalid : request.validate = .ok ()) (hlinks : RobotChecker.group cubes request.group = .ok ["base", "tool"]) :
    twinnedChecker.requested inv cubes (cubesState.linkPose cubes) request =
      .ok [placedBase base, placedTwin double, placedTool tool] := by
  have hcan : twinnedChecker.CanPlace (cubesState.linkPose cubes) ["base", "tool"] := by
    intro link hlink
    rcases List.mem_pair.mp hlink with rfl | rfl
    · exact ⟨⟨_, rfl⟩, _, linkPose_base cubes⟩
    · exact ⟨⟨_, rfl⟩, _, linkPose_tool cubes⟩
  have hown : RobotChecker.placeBody inv "base" .origin 0 = some (placedBase base) := by
    have hbody : inv.body? 0 = some base := by rw [Inventory.body?, hbodies]; rfl
    rw [RobotChecker.placeBody, hbody, Option.map_some, hbase.role, hbase.name]
    rfl
  have htwin : RobotChecker.placeBody inv "base" .origin 2 = some (placedTwin double) := by
    have hbody : inv.body? 2 = some double := by rw [Inventory.body?, hbodies]; rfl
    rw [RobotChecker.placeBody, hbody, Option.map_some, hattached, show double.name = "base" from hdouble.name]
    rfl
  have hmarked : twinnedChecker.markedOn inv (cubesState.linkPose cubes) "base" =
      [(0, placedBase base), (2, placedTwin double)] := by
    rw [RobotChecker.markedOn, linkPose_base, show twinnedChecker.bodiesOf "base" = [0, 2] from rfl]
    simp [hown, htwin]
  have hmarked' : twinnedChecker.markedOn inv (cubesState.linkPose cubes) "tool" = [(1, placedTool tool)] :=
    markedOn_cube htool (by rw [Inventory.body?, hbodies]; rfl) rfl (linkPose_tool cubes)
  refine (requested_of_canPlace hvalid hlinks hcan).trans (congrArg Except.ok ?_)
  simp [RobotChecker.marked, hmarked, hmarked']

theorem candidates_twinned (base double tool : Body ℝ) :
    twinnedChecker.candidates none [placedBase base, placedTwin double, placedTool tool] =
      [.pair (placedBase base) (placedTwin double), .pair (placedBase base) (placedTool tool),
        .pair (placedTwin double) (placedTool tool)] := rfl

/-- The base and its twin, and the twin and the tool. -/
noncomputable def ownPair (base double : Body ℝ) (inside within : BodyContent ℝ) : PlacedPair ℝ :=
  ⟨placedBase base, placedTwin double, inside, within⟩

noncomputable def twinPair (double tool : Body ℝ) (within outside : BodyContent ℝ) : PlacedPair ℝ :=
  ⟨placedTwin double, placedTool tool, within, outside⟩

section Twinned

variable {base double tool : Body ℝ} {inside within outside : BodyContent ℝ} (hbase : IsCube base "base" inside)
  (hdouble : IsCube { double with role := .link } "base" within) (htool : IsCube tool "tool" outside)

include hbase hdouble htool

theorem placedPairs_twinned :
    placedPairs (twinnedChecker.candidates none [placedBase base, placedTwin double, placedTool tool]) =
      .ok [ownPair base double inside within, cubesPair base tool inside outside,
        twinPair double tool within outside] := by
  have hown : (placedBase base).content = .ok inside := PlacedBody.content_eq_ok.mpr hbase.owned
  have htwin : (placedTwin double).content = .ok within := PlacedBody.content_eq_ok.mpr hdouble.owned
  have hof : PlacedPair.of (placedBase base) (placedTwin double) = .ok (ownPair base double inside within) :=
    PlacedPair.of_eq_ok.mpr ⟨hown, htwin, rfl, rfl⟩
  have hof' : PlacedPair.of (placedTwin double) (placedTool tool) = .ok (twinPair double tool within outside) := by
    obtain ⟨-, htip, -, -⟩ := PlacedPair.of_eq_ok.mp (of_cubes hbase htool)
    exact PlacedPair.of_eq_ok.mpr ⟨htwin, htip, rfl, rfl⟩
  rw [candidates_twinned]
  exact bind_eq_ok.mpr ⟨_, hof, bind_eq_ok.mpr ⟨_, bind_eq_ok.mpr ⟨_, of_cubes hbase htool,
    bind_eq_ok.mpr ⟨_, bind_eq_ok.mpr ⟨_, hof', rfl⟩, rfl⟩⟩, rfl⟩⟩

/-- The base and its twin both collide with the tool, and the pairs have the same names. -/
theorem filter_key_twinned (n : ℕ) :
    (collidingPairs (oneOfEach n) [ownPair base double inside within, cubesPair base tool inside outside,
      twinPair double tool within outside]).filter (·.key = ("base", "tool")) =
      [cubesPair base tool inside outside, twinPair double tool within outside] := by
  have hp : Check.counts (oneOfEach n) (cubesPair base tool inside outside) = true := collides_cubes hbase htool
  have hq : Check.counts (oneOfEach n) (twinPair double tool within outside) = true :=
    collides_of_corner rfl rfl hdouble.sample_neg htool.corner
  have hown : (ownPair base double inside within).key = ("base", "base") :=
    (by decide : pairKey "base" "base" = ("base", "base"))
  have htwin : (twinPair double tool within outside).key = ("base", "tool") :=
    (by decide : pairKey "base" "tool" = ("base", "tool"))
  rw [collidingPairs, List.filter_filter]
  simp [hown, key_cubes, htwin, hp, hq]

end Twinned

/-- Bodies of one name share what a pair may have: the base and its twin both collide with the tool, and
    though there is room for all contacts, only the base gets one. -/
theorem exists_unreported : ∃ inv bodies own p q n,
    let request := oneOfEach n
    let check := twinnedChecker.check inv cubes (cubesState.linkPose cubes) none request .empty
    Comes .standard [cubes] [] ⟨inv, [twinnedChecker], []⟩ ∧ RobotState.Run cubes .absent [] cubesState ∧
    request.validate = .ok () ∧
    twinnedChecker.requested inv cubes (cubesState.linkPose cubes) request = .ok bodies ∧
    placedPairs (twinnedChecker.candidates none bodies) = .ok own ∧
    ((collidingPairs request own).map contactCount).sum = n ∧
    p ∈ collidingPairs request own ∧ q ∈ collidingPairs request own ∧
    p.types = ("robot_link", "robot_link") ∧ q.types = ("robot_attached", "robot_link") ∧ p.key = q.key ∧
    ∃ c, Check.under check.result.contacts q.key = [c] ∧ (c.firstType, c.secondType) = p.types := by
  obtain ⟨base, double, tool, inside, within, outside, inv, hbase, hdouble, hattached, htool, hbodies, hcomes⟩ :=
    exists_attach_twin
  let p := cubesPair base tool inside outside
  let q := twinPair double tool within outside
  let own := [ownPair base double inside within, p, q]
  -- Which pairs collide does not depend on the caps.
  let n := ((collidingPairs (oneOfEach 0) own).map contactCount).sum
  have hvalid := validate_oneOfEach n
  have hrequested := requested_twinned hbase hdouble hattached htool hbodies hvalid rfl
  have hpairs := placedPairs_twinned hbase hdouble htool
  have hfound : (collidingPairs (oneOfEach n) own).filter (·.key = ("base", "tool")) = [p, q] :=
    filter_key_twinned hbase hdouble htool n
  have hmem : ∀ r ∈ [p, q], r ∈ collidingPairs (oneOfEach n) own ∧ r.key = ("base", "tool") := by
    intro r hr
    obtain ⟨hmem, hkey⟩ := List.mem_filter.mp (hfound ▸ hr)
    exact ⟨hmem, of_decide_eq_true hkey⟩
  obtain ⟨hp, hpkey⟩ := hmem p (by simp)
  obtain ⟨hq, hqkey⟩ := hmem q (by simp)
  have hshares : Shares (oneOfEach n) own
      (twinnedChecker.check inv cubes (cubesState.linkPose cubes) none (oneOfEach n) .empty) := by
    rw [RobotChecker.check, hrequested]
    exact Check.shares_run hvalid rfl (not_real_oneOfEach n) hpairs _ (Nat.le_refl n)
  have hptypes : p.types = ("robot_link", "robot_link") := by
    rw [PlacedPair.types, hpkey]
    rfl
  have hqtypes : q.types = ("robot_attached", "robot_link") := by
    rw [PlacedPair.types, hqkey]
    rfl
  have hunder := hshares.under ("base", "tool")
  rw [hfound] at hunder
  refine ⟨inv, _, own, p, q, n, hcomes, .start atDefaults_cubes, hvalid, hrequested, hpairs, rfl, hp, hq, hptypes,
    hqtypes, hpkey.trans hqkey.symm, ?_⟩
  obtain ⟨c, rest, hcontacts⟩ := List.exists_cons_of_ne_nil (Check.contactsOf_ne_nil hp)
  refine ⟨c, ?_, Check.types_of_mem_contactsOf (hcontacts ▸ List.mem_cons_self)⟩
  rw [hqkey, hunder, List.flatMap_cons, hcontacts]
  rfl

end Cubes

end Checkers

end Clearance
