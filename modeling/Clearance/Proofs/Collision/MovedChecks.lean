import Clearance.Proofs.Geometry.Composition
import Clearance.Proofs.Collision.MovedHistories
import Clearance.Proofs.Collision.Serving

/-!
# Checks in a moved world

What a check finds does not depend on where the scene stands. Samples are looked up from the bodies
that own the fields, and a rigid motion changes neither how they are seen from there nor how far
apart the spheres around the bodies are. In the moved world the same pairs are looked at, with the
same verdicts and contacts at moved positions with turned normals.

* `Hit.moved`, `Contact.moved`, `CollisionResult.moved`, `Check.moved`: moved findings.
* `PlacedPair.hits_moved`, `PlacedPair.gap_moved`: what a pair comes to.
* `Check.pair_moved`, `Check.run_moved`: one pair, and a whole check.
* `RobotChecker.check_moved`, `WorldChecker.check_moved`: checks of robots and of worlds.
* `Checkers.checks_in_moved_world`: the two scenes side by side.
-/

namespace Clearance

variable {g : Pose ℝ}

/-! ## Moved bodies and findings -/

/-- A placed body in the moved world. -/
noncomputable def PlacedBody.moved (b : PlacedBody ℝ) (g : Pose ℝ) : PlacedBody ℝ :=
  { b with body := b.body.moved g, pose := b.pose.moved g }

/-- A pair in the moved world. -/
noncomputable def PlacedPair.moved (p : PlacedPair ℝ) (g : Pose ℝ) : PlacedPair ℝ :=
  { p with first := p.first.moved g, second := p.second.moved g }

/-- A candidate in the moved world. -/
noncomputable def Candidate.moved (g : Pose ℝ) : Candidate ℝ → Candidate ℝ
  | .skipped first second why => .skipped first second why
  | .pair a b => .pair (a.moved g) (b.moved g)

/-- A sample of the moved world: its position is moved, and its direction turned. -/
noncomputable def Hit.moved (h : Hit ℝ) (g : Pose ℝ) : Hit ℝ :=
  { h with position := g.toWorld h.position, normal := g.rotation.mulVec h.normal }

/-- A contact in the moved world: its position is moved, and its normal turned. -/
noncomputable def Contact.moved (c : Contact (Vec3 ℝ) ℝ) (g : Pose ℝ) : Contact (Vec3 ℝ) ℝ :=
  { c with position := g.toWorld c.position, normal := g.rotation.mulVec c.normal }

/-- A result with every contact moved. -/
noncomputable def CollisionResult.moved (r : CollisionResult ℝ) (g : Pose ℝ) : CollisionResult ℝ :=
  { r with contacts := r.contacts.mapValues fun _ contacts => contacts.map (·.moved g) }

/-- A check with a moved result. -/
noncomputable def Check.moved (c : Check ℝ) (g : Pose ℝ) : Check ℝ := { c with result := c.result.moved g }

/-! ## One pair -/

/-- A moved sample in a field that was moved along. -/
theorem Hit.lookUp_moved (hg : g.IsMotion) (pose : Pose ℝ) (field : DistanceField ℝ) (v : Vec3 ℝ) :
    Hit.lookUp (pose.moved g) field (g.toWorld v) = (Hit.lookUp pose field v).moved g := by
  unfold Hit.lookUp
  rw [Pose.rowToLocal_moved hg]
  obtain ⟨distance, direction⟩ := field.sample (pose.rowToLocal v)
  dsimp only
  rw [Pose.rotateRow_moved]
  rfl

theorem Hit.opposite_moved (h : Hit ℝ) : (h.moved g).opposite = h.opposite.moved g := by
  simp only [Hit.opposite, Hit.moved, Mat3.mulVec_neg]

namespace PlacedPair

theorem of_moved (a b : PlacedBody ℝ) : of (a.moved g) (b.moved g) = (of a b).map (·.moved g) :=
  bind_eq_map fun _ => bind_eq_map fun _ => rfl

theorem hitsIn_moved (hg : g.IsMotion) (owner other : PlacedBody ℝ) (field : DistanceField ℝ)
    (samples : List (Vec3 ℝ)) :
    hitsIn (owner.moved g) (other.moved g) field samples = (hitsIn owner other field samples).map (·.moved g) := by
  unfold hitsIn
  rw [List.map_map]
  refine List.map_congr_left fun s _ => ?_
  show Hit.lookUp (owner.pose.moved g) field ((other.pose.moved g).toMotion.applyRow s) = _
  rw [Pose.applyRow_moved, Hit.lookUp_moved hg]
  rfl

theorem oriented_moved (p : PlacedPair ℝ) (owner : PlacedBody ℝ) (hits : List (Hit ℝ)) :
    (p.moved g).oriented (owner.moved g) (hits.map (·.moved g)) = (p.oriented owner hits).map (·.moved g) := by
  have hopposite : (hits.map (·.moved g)).map Hit.opposite = (hits.map Hit.opposite).map (·.moved g) := by
    rw [List.map_map, List.map_map]
    exact List.map_congr_left fun h _ => h.opposite_moved
  show (if owner.name = p.key.1 then _ else _) = _
  unfold oriented
  split
  · rfl
  · exact hopposite

/-- The samples of a pair, in order. -/
theorem hits_moved (hg : g.IsMotion) (p : PlacedPair ℝ) : (p.moved g).hits = p.hits.map (·.moved g) := by
  unfold hits
  rw [List.map_append, ← oriented_moved, ← oriented_moved, ← hitsIn_moved hg, ← hitsIn_moved hg]
  rfl

theorem gap_moved (hg : g.IsMotion) (p : PlacedPair ℝ) : (p.moved g).gap = p.gap := by
  have hcenter : ∀ b : PlacedBody ℝ, (b.moved g).center = g.toWorld b.center :=
    fun b => Pose.toWorld_moved b.pose b.body.center
  show gapBetween (p.first.moved g) (p.second.moved g) = gapBetween p.first p.second
  unfold gapBetween
  rw [hcenter, hcenter, Pose.norm_toWorld_sub hg]
  rfl

theorem isFar_moved (hg : g.IsMotion) (p : PlacedPair ℝ) : (p.moved g).isFar = p.isFar := by
  unfold isFar
  rw [gap_moved hg]
  rfl

end PlacedPair

/-! ## Results -/

namespace CollisionResult

theorem find?_moved (r : CollisionResult ℝ) (key : String × String) :
    (r.moved g).contacts.find? key = (r.contacts.find? key).map (List.map (·.moved g)) :=
  Table.find?_mapValues ..

theorem held_moved (r : CollisionResult ℝ) (key : String × String) : (r.moved g).held key = r.held key := by
  unfold held
  rw [find?_moved]
  cases r.contacts.find? key <;> simp

theorem addContact_moved (r : CollisionResult ℝ) (key : String × String) (c : Contact (Vec3 ℝ) ℝ) :
    (r.moved g).addContact key (c.moved g) = (r.addContact key c).moved g := by
  have hcontacts : ((r.moved g).contacts.find? key).getD [] ++ [c.moved g] =
      ((r.contacts.find? key).getD [] ++ [c]).map (·.moved g) := by
    rw [find?_moved]
    cases r.contacts.find? key <;> simp
  unfold addContact
  rw [hcontacts]
  simp only [moved, Table.mapValues_set]

theorem foldl_addContact_moved (r : CollisionResult ℝ) (key : String × String) (cs : List (Contact (Vec3 ℝ) ℝ)) :
    (cs.map (·.moved g)).foldl (fun r c => r.addContact key c) (r.moved g) =
      (cs.foldl (fun r c => r.addContact key c) r).moved g := by
  induction cs generalizing r with
  | nil => rfl
  | cons c rest ih =>
    rw [List.map_cons, List.foldl_cons, List.foldl_cons, addContact_moved]
    exact ih (r.addContact key c)

end CollisionResult

namespace Check

/-! ## Checks of candidates -/

/-- The colliding samples, the deepest first. -/
theorem collidingHits_moved (hits : List (Hit ℝ)) :
    collidingHits (hits.map (·.moved g)) = (collidingHits hits).map (·.moved g) := by
  have hdistances : (hits.map (·.moved g)).map Hit.distance = hits.map Hit.distance := by
    rw [List.map_map]
    rfl
  unfold collidingHits
  rw [hdistances, List.map_filterMap]
  refine List.filterMap_congr fun i _ => ?_
  simp

theorem contactAt_moved (p : PlacedPair ℝ) (h : Hit ℝ) :
    contactAt (p.moved g) (h.moved g) = (contactAt p h).moved g := rfl

theorem room_moved (request : CollisionRequest ℝ) (r : CollisionResult ℝ) (key : String × String) (found : Nat) :
    room request (r.moved g) key found = room request r key found := by
  unfold room
  rw [CollisionResult.held_moved]
  rfl

/-- Recording a collision. -/
theorem record_moved (request : CollisionRequest ℝ) (r : CollisionResult ℝ) (p : PlacedPair ℝ)
    (hits : List (Hit ℝ)) :
    record request (r.moved g) (p.moved g) (hits.map (·.moved g)) =
      ((record request r p hits).1.moved g, (record request r p hits).2) := by
  unfold record
  dsimp only
  split
  · rfl
  · have hroom : room request { r.moved g with collision := true } (p.moved g).key
        (collidingHits (hits.map (·.moved g))).length =
        room request { r with collision := true } p.key (collidingHits hits).length := by
      rw [collidingHits_moved, List.length_map]
      exact room_moved request { r with collision := true } p.key _
    rw [hroom]
    cases room request { r with collision := true } p.key (collidingHits hits).length with
    | error f => rfl
    | ok n =>
      have htaken : ((collidingHits (hits.map (·.moved g))).take n).map (contactAt (p.moved g)) =
          (((collidingHits hits).take n).map (contactAt p)).map (·.moved g) := by
        rw [collidingHits_moved, ← List.map_take, List.map_map, List.map_map]
        exact List.map_congr_left fun h _ => contactAt_moved p h
      dsimp only
      rw [htaken]
      rw [show ({ r.moved g with collision := true } : CollisionResult ℝ) =
        ({ r with collision := true } : CollisionResult ℝ).moved g from rfl,
        show (p.moved g).key = p.key from rfl, CollisionResult.foldl_addContact_moved]
      rfl

/-- One pair. -/
theorem pair_moved (hg : g.IsMotion) (request : CollisionRequest ℝ) (r : CollisionResult ℝ)
    (a b : PlacedBody ℝ) :
    pair request (r.moved g) (a.moved g) (b.moved g) =
      ((pair request r a b).1.moved g, (pair request r a b).2) := by
  unfold pair
  rw [PlacedPair.of_moved]
  cases PlacedPair.of a b with
  | error f => rfl
  | ok p =>
    have hdistances : (p.moved g).hits.map Hit.distance = p.hits.map Hit.distance := by
      rw [PlacedPair.hits_moved hg, List.map_map]
      rfl
    simp only [Except.map, PlacedPair.isFar_moved hg, hdistances]
    split
    · rfl
    · cases hleast : Scalar.minimum (p.hits.map Hit.distance) with
      | none =>
        dsimp only
        split <;> rfl
      | some d =>
        dsimp only
        have hdistance : (if request.distance then { r.moved g with distance := lesser (r.moved g).distance (some d) }
            else r.moved g) =
            (if request.distance then { r with distance := lesser r.distance (some d) } else r).moved g := by
          split <;> rfl
        rw [hdistance]
        split
        · rw [PlacedPair.hits_moved hg, record_moved]
          rfl
        · rfl

/-- A whole check. -/
theorem run_moved (hg : g.IsMotion) (request : CollisionRequest ℝ) (cs : List (Candidate ℝ))
    (r : CollisionResult ℝ) (events : Array (Event ℝ)) :
    run request (cs.map (·.moved g)) (r.moved g) events = (run request cs r events).moved g := by
  induction cs generalizing r events with
  | nil => rfl
  | cons c rest ih =>
    cases c with
    | skipped first second why => exact ih r _
    | pair a b =>
      rw [List.map_cons]
      show run request (.pair (a.moved g) (b.moved g) :: _) _ _ = _
      rw [run, run, pair_moved hg]
      obtain ⟨r', more, next⟩ := pair request r a b
      cases next with
      | proceed => exact ih r' _
      | stop | fail e => rfl

end Check

/-! ## Checks of robots and worlds -/

section Checks

variable (hg : g.IsMotion) (inv : Inventory ℝ) (m : RobotModel ℝ) (poses : LinkPoses ℝ)
  (allowed : Option AllowedCollisions) (request : CollisionRequest ℝ) (r : CollisionResult ℝ)

namespace RobotChecker

theorem placeBody_moved (link : String) (pose : Pose ℝ) (id : Nat) :
    placeBody (inv.moved g) link (pose.moved g) id = (placeBody inv link pose id).map (·.moved g) := by
  unfold placeBody
  rw [Inventory.body?_moved, Option.map_map, Option.map_map]
  refine congrArg (Option.map · (inv.body? id)) (funext fun b => ?_)
  obtain ⟨name, role, content, center, radius⟩ := b
  cases role <;> rfl

theorem placed_moved (c : RobotChecker ℝ) (links : List String) :
    c.placed (inv.moved g) (poses.moved g) links = (c.placed inv poses links).map (List.map (·.moved g)) := by
  unfold placed
  rw [mapM_map_results (k := List.map fun b : PlacedBody ℝ => b.moved g)]
  · refine map_bind_eq_map fun all => congrArg Except.ok ?_
    rw [List.map_flatten]
  · intro link
    cases c.geometries.find? link with
    | none => rfl
    | some geometry =>
      refine map_bind_eq_map fun pose => congrArg Except.ok ?_
      rw [List.map_filterMap]
      exact List.filterMap_congr fun id _ => placeBody_moved inv link pose id

theorem requested_moved (c : RobotChecker ℝ) :
    c.requested (inv.moved g) m (poses.moved g) request =
      (c.requested inv m poses request).map (List.map (·.moved g)) :=
  bind_eq_map fun _ => bind_eq_map fun links => placed_moved inv poses c links

theorem candidates_moved (c : RobotChecker ℝ) (bodies : List (PlacedBody ℝ)) :
    c.candidates allowed (bodies.map (·.moved g)) = (c.candidates allowed bodies).map (·.moved g) := by
  unfold candidates
  rw [RobotModel.pairs_map, List.map_map, List.map_map]
  refine List.map_congr_left fun ⟨a, b⟩ _ => ?_
  show c.candidate allowed (a.moved g) (b.moved g) = (c.candidate allowed a b).moved g
  unfold candidate
  rw [show c.skip? allowed (a.moved g) (b.moved g) = c.skip? allowed a b from rfl]
  cases c.skip? allowed a b <;> rfl

include hg in
theorem check_moved (c : RobotChecker ℝ) :
    c.check (inv.moved g) m (poses.moved g) allowed request (r.moved g) =
      (c.check inv m poses allowed request r).moved g := by
  unfold check
  rw [requested_moved]
  cases c.requested inv m poses request with
  | error e => rfl
  | ok bodies =>
    show Check.run request (c.candidates allowed (bodies.map (·.moved g))) _ _ = _
    rw [candidates_moved, Check.run_moved hg]

end RobotChecker

namespace WorldChecker

include hg in
theorem placeObject_moved (id : Nat) :
    placeObject (inv.moved g) id = (placeObject inv id).map (Option.map (·.moved g)) := by
  unfold placeObject
  rw [Inventory.body?_moved]
  cases inv.body? id with
  | none => rfl
  | some b =>
    obtain ⟨name, role, content, center, radius⟩ := b
    cases role with
    | link | attached => rfl
    | obstacle pose =>
      show (pose.moved g).copy.map _ = (pose.copy.map _).map _
      rw [Pose.copy_moved hg]
      cases pose.copy <;> rfl

include hg in
theorem placed_moved (w : WorldChecker ℝ) :
    w.placed (inv.moved g) = (w.placed inv).map (List.map (·.moved g)) := by
  unfold placed
  rw [mapM_map_results (placeObject_moved hg inv)]
  cases w.objects.values.mapM (placeObject inv) with
  | error e => rfl
  | ok bodies =>
    show Except.ok ((bodies.map (Option.map (·.moved g))).filterMap id) = Except.ok _
    rw [List.filterMap_map, List.map_filterMap]
    rfl

theorem candidates_moved (bodies objects : List (PlacedBody ℝ)) :
    candidates allowed (bodies.map (·.moved g)) (objects.map (·.moved g)) =
      (candidates allowed bodies objects).map (·.moved g) := by
  unfold candidates
  rw [List.flatMap_map, List.map_flatMap]
  refine List.flatMap_congr fun a _ => ?_
  rw [List.map_map, List.map_map]
  refine List.map_congr_left fun b _ => ?_
  show candidate allowed (a.moved g) (b.moved g) = (candidate allowed a b).moved g
  unfold candidate
  rw [show skip? allowed (a.moved g) (b.moved g) = skip? allowed a b from rfl]
  cases skip? allowed a b <;> rfl

include hg in
theorem check_moved (w : WorldChecker ℝ) (c : RobotChecker ℝ) :
    w.check (inv.moved g) c m (poses.moved g) allowed request (r.moved g) =
      (w.check inv c m poses allowed request r).moved g := by
  unfold check
  rw [RobotChecker.requested_moved]
  cases c.requested inv m poses request with
  | error e => rfl
  | ok bodies =>
    rw [placed_moved hg]
    cases w.placed inv with
    | error e => rfl
    | ok objects =>
      show Check.run request (candidates allowed (bodies.map (·.moved g)) (objects.map (·.moved g))) _ _ = _
      rw [candidates_moved, Check.run_moved hg]

end WorldChecker

end Checks

/-! ## The two scenes side by side -/

namespace Checkers

/-- A scene and the moved scene. Whatever is done with the checkers and with the state of a robot is
    done in the moved world with every obstacle, the root and every link that is put somewhere by hand
    where the motion takes them, and comes to the moved scene. There checks of robots and of worlds
    come to the same verdict, distance, number of contacts, pairs and events, and fail the same way;
    contacts are the same but for moved positions and turned normals. -/
theorem checks_in_moved_world (hg : g.IsMotion) :
    (∀ (s : Checkers ℝ) (a : Action ℝ), (s.moved g).step (a.moved g) = (s.step a).moved g) ∧
    (∀ (settings : Settings ℝ) (models : List (RobotModel ℝ)) (hand : List Nat) (s : Checkers ℝ),
      Comes settings models hand s → Comes settings models hand (s.moved g)) ∧
    (∀ (m : RobotModel ℝ) (root : PoseSource ℝ) (past : List (RobotState.Action ℝ)) (t : RobotState ℝ),
      RobotState.Run m (root.moved g) (past.map (·.moved g)) t ↔
        ∃ st, RobotState.Run m root past st ∧ t = st.moved g) ∧
    ∀ (c : RobotChecker ℝ) (w : WorldChecker ℝ) (inv : Inventory ℝ) (m : RobotModel ℝ) (st : RobotState ℝ)
      (allowed : Option AllowedCollisions) (request : CollisionRequest ℝ),
      c.check (inv.moved g) m ((st.moved g).linkPose m) allowed request .empty =
          (c.check inv m (st.linkPose m) allowed request .empty).moved g ∧
        w.check (inv.moved g) c m ((st.moved g).linkPose m) allowed request .empty =
          (w.check inv c m (st.linkPose m) allowed request .empty).moved g := by
  refine ⟨step_moved, fun _ _ _ _ h => comes_moved hg h, fun _ _ _ _ => RobotState.run_moved_iff hg, ?_⟩
  intro c w inv m st allowed request
  rw [RobotState.linkPose_moved hg]
  exact ⟨c.check_moved hg inv m (st.linkPose m) allowed request .empty,
    w.check_moved hg inv m (st.linkPose m) allowed request .empty c⟩

/-- The two cubes that overlap do so after the quarter turn. -/
theorem checks_in_moved_world_cubes : ∃ inv,
    let st := cubesState.moved Pose.turnedUp
    let check := cubesChecker.check (inv.moved Pose.turnedUp) cubes (st.linkPose cubes) none (.forDistance none) .empty
    Pose.turnedUp.IsMotion ∧
    Comes .standard [cubes] [] ((⟨inv, [cubesChecker], []⟩ : Checkers ℝ).moved Pose.turnedUp) ∧
    RobotState.Run cubes (PoseSource.absent.moved Pose.turnedUp) [] st ∧
    check.failure = none ∧ check.result.collision = true := by
  obtain ⟨base, tool, inside, outside, inv, hbase, htool, hbodies, hmake⟩ := exists_make_cubes
  obtain ⟨-, hcomes, hrun, hchecks⟩ := checks_in_moved_world Pose.isMotion_turnedUp
  let p := cubesPair base tool inside outside
  have hcounts : Check.counts (.forDistance none) p = true := collides_cubes hbase htool
  obtain ⟨events, hpair⟩ := Check.pair_eq_record (of_cubes hbase htool) hcounts .empty
  have hcheck : cubesChecker.check inv cubes (cubesState.linkPose cubes) none (.forDistance none) .empty =
      ⟨{ Check.seen (.forDistance none) .empty p with collision := true }, #[] ++ events.toArray, none⟩ := by
    have hrequested : cubesChecker.requested inv cubes (cubesState.linkPose cubes) (.forDistance none) =
        .ok [placedBase base, placedTool tool] := requested_cubes hbase htool hbodies rfl rfl
    simp only [RobotChecker.check, hrequested, candidates_cubes, Check.run, hpair]
    rfl
  obtain ⟨hself, -⟩ := hchecks cubesChecker (WorldChecker.empty aloneParams) inv cubes cubesState none
    (.forDistance none)
  rw [hcheck] at hself
  refine ⟨inv, Pose.isMotion_turnedUp, hcomes _ _ _ _ ⟨_, recorded_cubes hmake⟩,
    (hrun cubes .absent [] _).mpr ⟨_, .start atDefaults_cubes, rfl⟩, ?_, ?_⟩
  · exact congrArg Check.failure hself
  · exact congrArg (fun check => check.result.collision) hself

end Checkers

end Clearance
