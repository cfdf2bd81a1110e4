import Clearance.Proofs.Collision.Budgets
import Clearance.Proofs.Collision.OwnFields

/-!
# What contacts tell

A contact is kept under the names of two bodies, the smaller name first. It tells the types of the
bodies in that order, and the direction in which the second body is pushed out of the first: where a
sample of the second lies in the field of the first, that is the direction of the field, and where a
sample of the first lies in the field of the second, it is the opposite one. Two bodies of one name
have no order, and then no direction is turned round.

* `Check.Adds`, `Check.adds_pair`, `Check.adds_run`: what a query adds to a result.
* `PlacedPair.Labels`: what a contact tells of the two bodies of a pair.
* `contacts_labelled`: the contacts that robot checkers and worlds find.
* `exists_turned_wrong`: two bodies of one name, and a contact whose direction leads the other way.
-/

namespace Clearance

variable {α : Type}

/-! ## Contacts that are added -/

namespace Check

/-- Between two results only contacts were added, each at the end of the list under a key about which
    it tells the truth. -/
def Adds (tells : String × String → Contact (Vec3 α) α → Prop) (before after : CollisionResult α) : Prop :=
  ∀ key, ∃ new, under after.contacts key = under before.contacts key ++ new ∧ ∀ c ∈ new, tells key c

variable {tells : String × String → Contact (Vec3 α) α → Prop} {before between after : CollisionResult α}

theorem Adds.of_eq (h : after.contacts = before.contacts) : Adds tells before after :=
  fun key => ⟨[], by rw [h, List.append_nil], fun _ hc => nomatch hc⟩

theorem Adds.trans (h : Adds tells before between) (h' : Adds tells between after) : Adds tells before after := by
  intro key
  obtain ⟨new, hnew, htells⟩ := h key
  obtain ⟨more, hmore, htells'⟩ := h' key
  refine ⟨new ++ more, by rw [hmore, hnew, List.append_assoc], fun c hc => ?_⟩
  exact (List.mem_append.mp hc).elim (htells c) (htells' c)

theorem Adds.mono {tells' : String × String → Contact (Vec3 α) α → Prop} (h : Adds tells before after)
    (hmono : ∀ key c, tells key c → tells' key c) : Adds tells' before after := by
  intro key
  obtain ⟨new, hnew, htells⟩ := h key
  exact ⟨new, hnew, fun c hc => hmono key c (htells c hc)⟩

end Check

/-! ## What a query adds -/

section Queries

variable [Scalar α]

/-- A contact under a key is at a sample of a pair whose distance is not positive. -/
def PlacedPair.Has (p : PlacedPair α) (key : String × String) (c : Contact (Vec3 α) α) : Prop :=
  key = p.key ∧ ∃ h ∈ p.hits, Scalar.le h.distance 0 = true ∧ c = Check.contactAt p h

/-- A contact under a key is at a sample of a pair that is looked at. -/
def Candidate.Have (candidates : List (Candidate α)) (key : String × String) (c : Contact (Vec3 α) α) : Prop :=
  ∃ a b p, Candidate.pair a b ∈ candidates ∧ PlacedPair.of a b = .ok p ∧ p.Has key c

namespace Check

variable {request : CollisionRequest α} {r : CollisionResult α}

/-- Recording a collision adds contacts of the pair. -/
theorem adds_record (request : CollisionRequest α) (r : CollisionResult α) (p : PlacedPair α) :
    Adds p.Has r (record request r p p.hits).1 := by
  unfold record
  dsimp only
  split
  · exact .of_eq rfl
  · cases room request _ p.key (collidingHits p.hits).length with
    | error f => exact .of_eq rfl
    | ok n =>
      dsimp only
      have hkey : ∀ c ∈ ((collidingHits p.hits).take n).map (contactAt p), (c.first, c.second) = p.key := by
        intro c hc
        obtain ⟨h, -, rfl⟩ := List.mem_map.mp hc
        rfl
      rw [foldl_addContact p.key _ hkey]
      refine fun key => ⟨_, under_foldl_enter _ _ key, fun c hc => ?_⟩
      obtain ⟨hc, hat⟩ := List.mem_filter.mp hc
      refine ⟨(of_decide_eq_true hat).symm.trans (hkey c hc), ?_⟩
      obtain ⟨h, hh, rfl⟩ := List.mem_map.mp hc
      obtain ⟨hmem, hle⟩ := mem_collidingHits.mp (List.mem_of_mem_take hh)
      exact ⟨h, hmem, hle, rfl⟩

/-- Looking at a pair adds contacts of the pair. -/
theorem adds_pair {a b : PlacedBody α} {p : PlacedPair α} (hp : PlacedPair.of a b = .ok p) :
    Adds p.Has r (pair request r a b).1 := by
  cases hcounts : counts request p with
  | false =>
    rw [pair_of_not_counts hp hcounts]
    exact .of_eq (seen_contacts r p)
  | true =>
    obtain ⟨events, hpair⟩ := pair_eq_record hp hcounts r
    rw [hpair]
    exact Adds.trans (.of_eq (seen_contacts r p)) (adds_record request _ p)

/-- A run adds contacts of the pairs that it looks at. -/
theorem adds_run (candidates : List (Candidate α)) (events : Array (Event α)) :
    Adds (Candidate.Have candidates) r (run request candidates r events).result := by
  induction candidates generalizing r events with
  | nil => exact .of_eq rfl
  | cons candidate rest ih =>
    have hrest : ∀ {r events}, Adds (Candidate.Have (candidate :: rest)) r (run request rest r events).result :=
      (ih _).mono fun key c ⟨a, b, p, hab, hp, hc⟩ => ⟨a, b, p, List.mem_cons_of_mem _ hab, hp, hc⟩
    cases candidate with
    | skipped first second why => exact hrest
    | pair a b =>
      have hpair : Adds (Candidate.Have (.pair a b :: rest)) r (pair request r a b).1 := by
        cases hp : PlacedPair.of a b with
        | error f =>
          unfold pair
          rw [hp]
          exact .of_eq rfl
        | ok p => exact (adds_pair hp).mono fun key c hc => ⟨a, b, p, List.mem_cons_self, hp, hc⟩
      rw [run]
      generalize pair request r a b = found at hpair
      obtain ⟨r', more, next⟩ := found
      cases next with
      | proceed => exact hpair.trans hrest
      | stop => exact hpair
      | fail e => exact hpair

end Check

end Queries

/-! ## Labels and directions -/

namespace PlacedBody

variable [Scalar α]

/-- The samples of a body, in the world. -/
def samples (b : PlacedBody α) (content : BodyContent α) : List (Vec3 α) :=
  content.samples.map b.pose.toMotion.applyRow

/-- The direction of a body's field at a place in the world. It leads out of the body. -/
def outward (b : PlacedBody α) (content : BodyContent α) (v : Vec3 α) : Vec3 α :=
  b.pose.toMotion.rotateRow (content.field.sample (b.pose.rowToLocal v)).2

end PlacedBody

namespace PlacedPair

/-- The bodies of a pair in the order of their names. Bodies of one name stay where they are. -/
def inOrder (p : PlacedPair α) : PlacedPair α :=
  if p.second.name < p.first.name then ⟨p.second, p.first, p.secondContent, p.firstContent⟩ else p

theorem key_eq (p : PlacedPair α) : p.key = (p.inOrder.first.name, p.inOrder.second.name) := by
  unfold key pairKey inOrder
  split <;> rfl

theorem types_eq (p : PlacedPair α) : p.types = (p.inOrder.first.type, p.inOrder.second.type) := by
  unfold types key pairKey inOrder
  split
  · rename_i h
    have hne : p.first.name ≠ p.second.name := fun heq => String.lt_irrefl _ (heq ▸ h)
    exact if_neg hne
  · exact if_pos rfl

theorem inOrder_le (p : PlacedPair α) : p.inOrder.first.name ≤ p.inOrder.second.name := by
  unfold inOrder
  split
  · rename_i h
    exact String.not_lt.mp (String.lt_asymm h)
  · exact String.not_lt.mp ‹_›

variable [Scalar α]

/-- Where a sample of a pair is and how it is directed. A sample of the second body lies in the field of
    the first and is directed out of it; a sample of the first lies in the field of the second and is
    directed into it, unless the bodies have one name. -/
inductive Directed (p : PlacedPair α) (position normal : Vec3 α) : Prop where
  | outOfFirst : position ∈ p.second.samples p.secondContent →
      normal = p.first.outward p.firstContent position → Directed p position normal
  | intoSecond : position ∈ p.first.samples p.firstContent → p.first.name ≠ p.second.name →
      normal = -p.second.outward p.secondContent position → Directed p position normal
  | outOfSecond : position ∈ p.first.samples p.firstContent → p.first.name = p.second.name →
      normal = p.second.outward p.secondContent position → Directed p position normal

/-- A contact under a key tells of the two bodies of a pair, in the order of their names. -/
structure Labels (p : PlacedPair α) (key : String × String) (c : Contact (Vec3 α) α) : Prop where
  key : key = (c.first, c.second)
  sorted : c.first ≤ c.second
  names : c.first = p.inOrder.first.name ∧ c.second = p.inOrder.second.name
  types : c.firstType = p.inOrder.first.type ∧ c.secondType = p.inOrder.second.type
  directed : p.inOrder.Directed c.position c.normal

theorem of_mem_hitsIn {a b : PlacedBody α} {ca cb : BodyContent α} {h : Hit α}
    (hh : h ∈ hitsIn a b ca.field cb.samples) : h.position ∈ b.samples cb ∧ h.normal = a.outward ca h.position := by
  obtain ⟨s, hs, rfl⟩ := List.mem_map.mp hh
  exact ⟨List.mem_map.mpr ⟨s, hs, rfl⟩, rfl⟩

theorem of_mem_opposite {a b : PlacedBody α} {ca cb : BodyContent α} {h : Hit α}
    (hh : h ∈ (hitsIn a b ca.field cb.samples).map Hit.opposite) :
    h.position ∈ b.samples cb ∧ h.normal = -a.outward ca h.position := by
  obtain ⟨h', hmem, rfl⟩ := List.mem_map.mp hh
  obtain ⟨hposition, hnormal⟩ := of_mem_hitsIn hmem
  exact ⟨hposition, congrArg (-·) hnormal⟩

/-- The samples of a pair are turned round where they lie in the field of the body that comes second by
    name. -/
theorem directed_of_mem_hits {p : PlacedPair α} {h : Hit α} (hh : h ∈ p.hits) :
    p.inOrder.Directed h.position h.normal := by
  unfold hits oriented at hh
  rw [key_eq] at hh
  unfold inOrder at hh ⊢
  by_cases hlt : p.second.name < p.first.name
  · have hne : p.first.name ≠ p.second.name := fun heq => String.lt_irrefl _ (heq ▸ hlt)
    simp only [if_pos hlt, if_neg hne, if_true, List.mem_append] at hh ⊢
    rcases hh with hh | hh
    · obtain ⟨hposition, hnormal⟩ := of_mem_opposite hh
      exact .intoSecond hposition hne.symm hnormal
    · obtain ⟨hposition, hnormal⟩ := of_mem_hitsIn hh
      exact .outOfFirst hposition hnormal
  · simp only [if_neg hlt, if_true, List.mem_append] at hh ⊢
    rcases hh with hh | hh
    · obtain ⟨hposition, hnormal⟩ := of_mem_hitsIn hh
      exact .outOfFirst hposition hnormal
    · by_cases heq : p.second.name = p.first.name
      · rw [if_pos heq] at hh
        obtain ⟨hposition, hnormal⟩ := of_mem_hitsIn hh
        exact .outOfSecond hposition heq.symm hnormal
      · rw [if_neg heq] at hh
        obtain ⟨hposition, hnormal⟩ := of_mem_opposite hh
        exact .intoSecond hposition (Ne.symm heq) hnormal

theorem labels_of_has {p : PlacedPair α} {key : String × String} {c : Contact (Vec3 α) α} (h : p.Has key c) :
    p.Labels key c := by
  obtain ⟨rfl, hit, hmem, -, rfl⟩ := h
  have hnames : p.key.1 = p.inOrder.first.name ∧ p.key.2 = p.inOrder.second.name := by
    rw [key_eq]
    exact ⟨rfl, rfl⟩
  have htypes : p.types.1 = p.inOrder.first.type ∧ p.types.2 = p.inOrder.second.type := by
    rw [types_eq]
    exact ⟨rfl, rfl⟩
  refine ⟨rfl, ?_, hnames, htypes, directed_of_mem_hits hmem⟩
  rw [Check.contactAt, hnames.1, hnames.2]
  exact p.inOrder_le

end PlacedPair

/-! ## The contacts that checkers find -/

section Checkers

variable [Scalar α]

/-- A contact under a key tells of the two bodies of a pair that is looked at. -/
def Candidate.Label (candidates : List (Candidate α)) (key : String × String) (c : Contact (Vec3 α) α) : Prop :=
  ∃ a b p, Candidate.pair a b ∈ candidates ∧ PlacedPair.of a b = .ok p ∧ p.Labels key c

theorem Check.labelled_run {request : CollisionRequest α} {r : CollisionResult α} (candidates : List (Candidate α))
    (events : Array (Event α)) :
    Check.Adds (Candidate.Label candidates) r (Check.run request candidates r events).result :=
  (Check.adds_run candidates events).mono fun _ _ ⟨a, b, p, hab, hp, hc⟩ =>
    ⟨a, b, p, hab, hp, PlacedPair.labels_of_has hc⟩

/-- Whatever two placed bodies are looked at, with whatever request and result, the contacts that are
    added tell of the two bodies in the order of their names, and so do the contacts that the queries of
    robot checkers and worlds add for the pairs that they enumerate. Their directions lead from the
    first body to the second, unless the two have one name. -/
theorem contacts_labelled (c : RobotChecker α) (w : WorldChecker α) (inv : Inventory α) (m : RobotModel α)
    (poses : LinkPoses α) (allowed : Option AllowedCollisions) (request : CollisionRequest α)
    (result : CollisionResult α) (bodies objects : List (PlacedBody α))
    (hbodies : c.requested inv m poses request = .ok bodies) (hobjects : w.placed inv = .ok objects) :
    (∀ a b p, PlacedPair.of a b = .ok p → Check.Adds p.Labels result (Check.pair request result a b).1) ∧
    Check.Adds (Candidate.Label (c.candidates allowed bodies)) result
      (c.check inv m poses allowed request result).result ∧
    Check.Adds (Candidate.Label (WorldChecker.candidates allowed bodies objects)) result
      (w.check inv c m poses allowed request result).result := by
  refine ⟨fun a b p hp => ?_, ?_, ?_⟩
  · exact (Check.adds_pair hp).mono fun _ _ => PlacedPair.labels_of_has
  · rw [RobotChecker.check, hbodies]
    exact Check.labelled_run _ _
  · rw [WorldChecker.check, hbodies]
    dsimp only
    rw [hobjects]
    exact Check.labelled_run _ _

open Checkers in
/-- The contact of two cubes tells of them. -/
theorem contacts_labelled_cubes : ∃ inv base tool inside outside request c,
    let world := WorldChecker.empty aloneParams
    cubesChecker.requested inv cubes (cubesState.linkPose cubes) request = .ok [placedBase base, placedTool tool] ∧
    world.placed inv = .ok [] ∧
    c ∈ Check.under (cubesChecker.check inv cubes (cubesState.linkPose cubes) none request .empty).result.contacts
      ("base", "tool") ∧
    (cubesPair base tool inside outside).Labels ("base", "tool") c := by
  obtain ⟨base, tool, inside, outside, inv, hbase, htool, hbodies, -⟩ := exists_make_cubes
  obtain ⟨n, c, hc⟩ := exists_under_cubes hbase htool hbodies
  have hrequested := requested_cubes (m := cubes) hbase htool hbodies (validate_oneOfEach n) rfl
  obtain ⟨-, hself, -⟩ := contacts_labelled cubesChecker (WorldChecker.empty aloneParams) inv cubes
    (cubesState.linkPose cubes) none (oneOfEach n) .empty _ [] hrequested rfl
  obtain ⟨new, hnew, hlabels⟩ := hself ("base", "tool")
  have hmem : c ∈ new := (List.mem_append.mp (hnew ▸ hc)).resolve_left List.not_mem_nil
  obtain ⟨a, b, p, hab, hp, hlabel⟩ := hlabels c hmem
  rw [candidates_cubes] at hab
  cases List.mem_singleton.mp hab
  cases (of_cubes hbase htool).symm.trans hp
  exact ⟨inv, base, tool, inside, outside, oneOfEach n, c, hrequested, rfl, hc, hlabel⟩

end Checkers

/-! ## Two bodies of one name -/

section Namesakes

open Checkers (placedBase)

/-- A request for the least distance and for so many contacts, all of which one pair may have. -/
noncomputable def Check.allOfEach (n : ℕ) : CollisionRequest ℝ := ⟨none, true, .int n, .int n, false, true⟩

/-- Such a request finds a contact at every sample of a pair whose distance is not positive. -/
theorem Check.contactAt_mem {a b : PlacedBody ℝ} {p : PlacedPair ℝ} {h : Hit ℝ} (hp : PlacedPair.of a b = .ok p)
    (hh : h ∈ p.hits) (hle : h.distance ≤ 0) :
    contactAt p h ∈ under (run (allOfEach (contactCount p)) [.pair a b] .empty #[]).result.contacts p.key := by
  have hcounts : counts (allOfEach (contactCount p)) p = true :=
    collides_minimum_iff.mpr ⟨_, List.mem_map_of_mem hh, hle⟩
  have hvalid : (allOfEach (contactCount p)).validate = .ok () := CollisionRequest.validate_counted (allOfEach _)
  have hpairs : placedPairs [.pair a b] = .ok [p] := bind_eq_ok.mpr ⟨p, hp, rfl⟩
  rw [under_run_alone hvalid rfl nofun hpairs hcounts #[] (Nat.le_refl _) (Nat.le_max_right _ _)]
  exact List.mem_map_of_mem (mem_collidingHits.mpr ⟨hh, by simpa using hle⟩)

variable {b : Body ℝ} {content : BodyContent ℝ}

/-- A place above the middle of a cube that is one voxel, looked up where the cube is not turned. -/
theorem Body.IsVoxel.lookUp (h : b.IsVoxel content) {t : ℝ} (ht : 0 ≤ t) (ht' : t < 1) {pose : Pose ℝ}
    (hpose : pose.rotation = Mat3.identity) {v : Vec3 ℝ} (hv : pose.rowToLocal v = ⟨0, 0, t * 8⟩) :
    Hit.lookUp pose content.field v = ⟨(t - 1 / 2) * 8, v, DistanceField.direction ⟨0, 0, t⟩⟩ := by
  rw [Hit.lookUp, hv, h.sample_above ht ht']
  simp [Motion.rotateRow, Pose.toMotion, hpose, Mat3.vecMul, Mat3.identity, Mat3.transpose]

/-- The cube as an obstacle that is called as the link above it. The lowest corner of the link is two
    units above the middle of the obstacle. -/
noncomputable def namesake (b : Body ℝ) : PlacedBody ℝ :=
  ⟨"base", none, "world_object", b, ⟨⟨-4, -4, -6⟩, Mat3.identity, ""⟩, []⟩

/-- The link and the obstacle. -/
noncomputable def namesakes (b : Body ℝ) (content : BodyContent ℝ) : PlacedPair ℝ :=
  ⟨placedBase b, namesake b, content, content⟩

/-- The corner of the link in the field of the obstacle. -/
noncomputable def namesakesHit : Hit ℝ :=
  ⟨(1 / 4 - 1 / 2) * 8, ⟨-4, -4, -4⟩, DistanceField.direction ⟨0, 0, 1 / 4⟩⟩

theorem rowToLocal_namesake (b : Body ℝ) : (namesake b).pose.rowToLocal ⟨-4, -4, -4⟩ = ⟨0, 0, 1 / 4 * 8⟩ := by
  simp [namesake, Pose.rowToLocal, Mat3.vecMul, Mat3.identity]
  norm_num

theorem lookUp_namesake (h : b.IsVoxel content) :
    Hit.lookUp (namesake b).pose content.field ⟨-4, -4, -4⟩ = namesakesHit :=
  h.lookUp (by norm_num) (by norm_num) rfl (rowToLocal_namesake b)

theorem namesakesHit_mem (h : b.IsVoxel content) : namesakesHit ∈ (namesakes b content).hits := by
  have hplace : (placedBase b).pose.toMotion.applyRow ⟨-4, -4, -4⟩ = ⟨-4, -4, -4⟩ := Pose.applyRow_origin _
  have hmem : namesakesHit ∈ PlacedPair.hitsIn (namesake b) (placedBase b) content.field content.samples :=
    List.mem_map.mpr ⟨_, h.corner_mem, (congrArg (Hit.lookUp _ _) hplace).trans (lookUp_namesake h)⟩
  have hname : (namesake b).name = (namesakes b content).key.1 := (by decide : "base" = (pairKey "base" "base").1)
  refine List.mem_append_right _ ?_
  rw [PlacedPair.oriented]
  exact (if_pos hname).symm ▸ hmem

/-- The contact at the corner of the link, which comes first, has a direction that leads out of the
    obstacle. -/
theorem exists_turned_wrong : ∃ b content request c,
    b.IsBuilt ∧ b.shapes = [⟨DistanceField.cube, .origin⟩] ∧ b.content = some content ∧
    request.validate = .ok () ∧
    c ∈ Check.under (Check.run request [.pair (placedBase b) (namesake b)] .empty #[]).result.contacts
      ("base", "base") ∧
    (c.firstType, c.secondType) = ("robot_link", "world_object") ∧
    c.position ∈ (placedBase b).samples content ∧ c.position ∉ (namesake b).samples content ∧
    c.normal = (namesake b).outward content c.position ∧ c.normal ≠ -(namesake b).outward content c.position := by
  obtain ⟨b, content, h⟩ := Body.exists_isVoxel
  have hof : PlacedPair.of (placedBase b) (namesake b) = .ok (namesakes b content) :=
    PlacedPair.of_eq_ok.mpr ⟨PlacedBody.content_eq_ok.mpr h.owned, PlacedBody.content_eq_ok.mpr h.owned, rfl, rfl⟩
  have hle : namesakesHit.distance ≤ 0 := by
    norm_num [namesakesHit]
  have hcontact := Check.contactAt_mem hof (namesakesHit_mem h) hle
  have hnormal : namesakesHit.normal = (namesake b).outward content ⟨-4, -4, -4⟩ :=
    (congrArg Hit.normal (lookUp_namesake h)).symm
  have hkey : (namesakes b content).key = ("base", "base") := (by decide : pairKey "base" "base" = ("base", "base"))
  have htypes : (namesakes b content).types = ("robot_link", "world_object") := by
    rw [PlacedPair.types, hkey]
    exact if_pos rfl
  rw [hkey] at hcontact
  refine ⟨b, content, _, _, h.built, h.shapes, h.owned,
    CollisionRequest.validate_counted (Check.allOfEach _), hcontact, htypes, ?_, ?_, hnormal, ?_⟩
  · exact List.mem_map.mpr ⟨_, h.corner_mem, Pose.applyRow_origin _⟩
  · intro hmem
    obtain ⟨v, hv, hplace⟩ := List.mem_map.mp hmem
    have hlocal : v = ⟨0, 0, 1 / 4 * 8⟩ := by
      have hrigid : (namesake b).pose.IsRigid := Mat3.isOrthogonal_identity
      rw [← rowToLocal_namesake b, ← Pose.rowToLocal_applyRow hrigid v]
      exact congrArg _ hplace
    exact h.not_mem_samples (by norm_num) (by norm_num) (hlocal ▸ hv)
  · show namesakesHit.normal ≠ -(namesake b).outward content ⟨-4, -4, -4⟩
    rw [← hnormal]
    refine Vec3.ne_neg_of_norm_eq_one (DistanceField.norm_direction_of_lt ?_)
    rw [Vec3.norm_onAxis, DistanceField.directionTolerance, Exact.trillionth_eq, abs_of_pos (by norm_num)]
    norm_num

end Namesakes

end Clearance
