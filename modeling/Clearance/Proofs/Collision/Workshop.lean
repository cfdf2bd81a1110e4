import Clearance.Proofs.Collision.Serving
import Clearance.Proofs.Robot.KnownPoses

/-!
# Building a robot while it is used

Links and groups are added to a model while states and checkers of it are made and used, in any
order. Groups are read from the model as it is now, but a state has poses only for the links that it
has met, and a checker has bodies only for the links that were there when it was made. A lookup of a
link that came later fails without telling its name.

* `Workshop`, `Workshop.step`: a model with its states and checkers, and what can be done with them.
* `Workshop.Sound`, `Workshop.sound_after`: the invariant.
* `Check.failure_run_ne_key`: no query fails by a key once its bodies are placed.
* `Workshop.lookups_after`: what lookups and queries come to after any number of actions.
-/

namespace Clearance

variable {α : Type} [Scalar α]

/-- A model with the states and the checkers over it. Each state comes with the links that it has
    met, and each checker with the model for which it was made; the bodies that were released by hand
    are kept too. -/
structure Workshop (α : Type) where
  model : RobotModel α
  states : List (RobotState α × List String)
  made : List (RobotModel α)
  hand : List Nat
  checkers : Checkers α

namespace Workshop

/-! ## What can be done -/

/-- What can be done in a workshop. States and checkers are named by their places. -/
inductive Action (α : Type) where
  | addLink (source : LinkSource α)
  | addGroup (name : String) (links : List String)
  | newState (root : PoseSource α)
  /-- One more state, a copy of another. -/
  | copyState (state : Nat)
  | useState (state : Nat) (a : RobotState.Action α)
  | newRobot (neighbours : Option (List (String × String))) (params : BodyParams α)
  | newWorld (params : BodyParams α)
  | useCheckers (a : Checkers.Action α)
  /-- Others leave the caches as they please. -/
  | others (caches : Array (FieldCache α))

/-- The poses that an action is given can be copied. -/
def Action.Checked : Action α → Prop
  | .useState _ a => a.Checked
  | .useCheckers a => a.Checked
  | _ => True

/-- A model without links, and no states and checkers. -/
def start (kind : ModelKind) (name : Option String) (settings : Settings α) (caches : Nat) : Workshop α :=
  ⟨.empty kind name, [], [], [], ⟨Inventory.start settings caches, [], []⟩⟩

/-- The workshop with one more state. -/
def withState (w : Workshop α) (s : RobotState α) (known : List String) : Workshop α :=
  { w with states := w.states ++ [(s, known)] }

/-- The workshop with one more robot checker of the model. -/
def withRobot (w : Workshop α) (c : RobotChecker α) (inv : Inventory α) : Workshop α :=
  { w with
    made := w.made ++ [w.model]
    checkers := { w.checkers with inventory := inv, robots := w.checkers.robots ++ [c] } }

/-- The workshop after an action, whether it fails or not. -/
def step (w : Workshop α) : Action α → Workshop α
  | .addLink source => { w with model := (w.model.addLink source).model }
  | .addGroup name links =>
    match w.model.addGroup name links with
    | .ok m => { w with model := m }
    | .error _ => w
  | .newState root =>
    match RobotState.atDefaults w.model root with
    | .ok s => w.withState s w.model.linkNames
    | .error _ => w
  | .copyState i =>
    match w.states[i]? with
    | some (s, known) =>
      match s.copy w.model with
      | .ok s' => w.withState s' known
      | .error _ => w
    | none => w
  | .useState i a =>
    match w.states[i]? with
    | some (s, known) =>
      { w with states := w.states.set i (s.left w.model a, RobotState.placedBy w.model s known a) }
    | none => w
  | .newRobot neighbours params =>
    match (RobotChecker.make w.model neighbours params).run w.checkers.inventory with
    | (.ok c, inv) => w.withRobot c inv
    | (.error _, inv) => { w with checkers := { w.checkers with inventory := inv } }
  | .newWorld params =>
    { w with checkers := { w.checkers with worlds := w.checkers.worlds ++ [WorldChecker.empty params] } }
  | .useCheckers a => { w with hand := a.byHand ++ w.hand, checkers := w.checkers.step a }
  | .others caches =>
    { w with checkers := { w.checkers with inventory := { w.checkers.inventory with caches := caches } } }

/-- The workshop after actions, one after the other. -/
def after (w : Workshop α) (actions : List (Action α)) : Workshop α := actions.foldl step w

/-! ## The invariant -/

/-- The model is grown, the checkers are such as can come about, and each state has poses of the links
    that it has met, which are links of the model. -/
structure Sound (settings : Settings α) (w : Workshop α) : Prop where
  grown : w.model.Grown
  comes : Checkers.Comes settings w.made w.hand w.checkers
  states : ∀ s known, (s, known) ∈ w.states →
    RobotState.Places s.poses known ∧ ∀ link ∈ known, link ∈ w.model.linkNames

variable {settings : Settings α} {w : Workshop α} {m : RobotModel α} {s : RobotState α} {known : List String}

theorem sound_start (kind : ModelKind) (name : Option String) (settings : Settings α) (caches : Nat) :
    Sound settings (start kind name settings caches) :=
  ⟨.empty kind name, ⟨_, .start caches trivial⟩, fun _ _ h => absurd h List.not_mem_nil⟩

/-- A model may take the place of another if all links stay. -/
theorem Sound.withModel (hw : Sound settings w) (hm : m.Grown)
    (hlinks : ∀ link ∈ w.model.linkNames, link ∈ m.linkNames) : Sound settings { w with model := m } := by
  refine ⟨hm, hw.comes, fun s known hs => ?_⟩
  obtain ⟨hplaces, hknown⟩ := hw.states s known hs
  exact ⟨hplaces, fun link hlink => hlinks link (hknown link hlink)⟩

theorem Sound.withState (hw : Sound settings w) (hs : RobotState.Places s.poses known)
    (hknown : ∀ link ∈ known, link ∈ w.model.linkNames) : Sound settings (w.withState s known) := by
  refine ⟨hw.grown, hw.comes, fun s' known' h => ?_⟩
  rcases List.mem_append.mp h with h | h
  · exact hw.states s' known' h
  · cases List.mem_singleton.mp h
    exact ⟨hs, hknown⟩

theorem Sound.useState (hw : Sound settings w) {i : Nat} (hi : w.states[i]? = some (s, known))
    {a : RobotState.Action α} (ha : a.Checked) :
    Sound settings
      { w with states := w.states.set i (s.left w.model a, RobotState.placedBy w.model s known a) } := by
  obtain ⟨hplaces, hknown⟩ := hw.states s known (List.mem_of_getElem? hi)
  refine ⟨hw.grown, hw.comes, fun s' known' h => ?_⟩
  rcases List.mem_or_eq_of_mem_set h with h | h
  · exact hw.states s' known' h
  · cases h
    exact ⟨hplaces.left hw.grown.keyed ha, RobotState.mem_linkNames_of_placedBy hknown⟩

theorem Sound.step (hw : Sound settings w) (a : Action α) (ha : a.Checked) : Sound settings (w.step a) := by
  obtain ⟨log, hcomes⟩ := hw.comes
  cases a with
  | addLink source =>
    exact hw.withModel (.addLink source hw.grown) fun link => (RobotModel.adding _ source).mem_linkNames
  | addGroup name links =>
    rw [Workshop.step]
    split
    · rename_i m hm
      refine hw.withModel (.addGroup hw.grown hm) fun link hlink => ?_
      rw [RobotModel.linkNames, (RobotModel.links_addGroup hm).1]
      exact hlink
    · exact hw
  | newState root =>
    rw [Workshop.step]
    split
    · rename_i s hs
      exact hw.withState (RobotState.places_atDefaults hw.grown.keyed hs) fun link => id
    · exact hw
  | copyState i =>
    rw [Workshop.step]
    split
    · rename_i s known hi
      split
      · rename_i s' hcopy
        cases RobotState.eq_of_copy hcopy
        obtain ⟨hplaces, hknown⟩ := hw.states s known (List.mem_of_getElem? hi)
        exact hw.withState hplaces hknown
      · exact hw
    · exact hw
  | useState i a =>
    rw [Workshop.step]
    split
    · rename_i s known hi
      exact hw.useState hi ha
    · exact hw
  | newRobot neighbours params =>
    rw [Workshop.step]
    split
    · rename_i c inv hmake
      exact ⟨hw.grown, ⟨_, .robot hcomes hw.grown hmake⟩, hw.states⟩
    · rename_i e inv hmake
      exact ⟨hw.grown, ⟨_, .refused hcomes trivial hw.grown hmake⟩, hw.states⟩
  | newWorld params => exact ⟨hw.grown, ⟨_, .world params hcomes trivial⟩, hw.states⟩
  | useCheckers a => exact ⟨hw.grown, ⟨_, .step a hcomes ha⟩, hw.states⟩
  | others caches => exact ⟨hw.grown, ⟨_, .others caches hcomes trivial⟩, hw.states⟩

theorem sound_after (hw : Sound settings w) {actions : List (Action α)} (hactions : ∀ a ∈ actions, a.Checked) :
    Sound settings (w.after actions) := by
  induction actions generalizing w with
  | nil => exact hw
  | cons a rest ih =>
    obtain ⟨ha, hrest⟩ := List.forall_mem_cons.mp hactions
    exact ih (hw.step a ha) hrest

end Workshop

/-! ## Failures of queries -/

theorem CollisionRequest.wholePart_ne_key (cap : Given α) : wholePart cap ≠ .error .key := by
  intro h
  cases cap with
  | int n => cases h
  | bool b => cases h
  | other => cases h
  | real x =>
    rw [wholePart] at h
    split_ifs at h <;> cases h
  | text s x =>
    rw [wholePart] at h
    split at h <;> cases h

theorem CollisionRequest.validate_ne_key {request : CollisionRequest α} :
    request.validate ≠ .error (.fault .key) := by
  have hcap : ∀ field (cap : Given α), checkCap field cap ≠ .error (.fault .key) := by
    intro field cap h
    rcases bind_eq_error.mp h with hwhole | ⟨whole, -, h⟩
    · exact wholePart_ne_key cap (Fault.lift_eq_error.mp hwhole)
    · split at h <;> cases h
  intro h
  rcases bind_eq_error.mp h with h | ⟨_, -, h⟩ <;> exact hcap _ _ h

namespace Check

variable {request : CollisionRequest α}

theorem room_ne_key (result : CollisionResult α) (key : String × String) (found : Nat) :
    room request result key found ≠ .error .key := by
  intro h
  rcases bind_eq_error.mp h with hpair | ⟨k, -, h⟩
  · unfold CollisionRequest.perPair at hpair
    cases hwhole : CollisionRequest.wholePart request.maxPerPair with
    | ok n =>
      rw [hwhole] at hpair
      cases hpair
    | error f =>
      rw [hwhole] at hpair
      cases hpair
      exact CollisionRequest.wholePart_ne_key _ hwhole
  · split at h
    · dsimp only at h
      split_ifs at h
      cases h
    · rcases bind_eq_error.mp h with hwhole | ⟨n, -, h⟩
      · exact CollisionRequest.wholePart_ne_key _ hwhole
      · cases h

/-- A pair is not the reason for a query to fail by a key. -/
theorem pair_ne_key (result : CollisionResult α) (a b : PlacedBody α) :
    (pair request result a b).2.2 ≠ .fail (.fault .key) := by
  have hof : PlacedPair.of a b ≠ .error .key := by
    unfold PlacedPair.of PlacedBody.content
    cases a.body.content <;> cases b.body.content <;> intro h <;> cases h
  have hrecord : ∀ (r : CollisionResult α) p hits, (record request r p hits).2 ≠ .fail (.fault .key) := by
    intro r p hits h
    unfold record at h
    dsimp only at h
    split at h
    · split at h <;> cases h
    · split at h
      · rename_i f hroom
        cases h
        exact room_ne_key _ _ _ hroom
      · split_ifs at h
  intro h
  unfold pair at h
  split at h
  · rename_i f hp
    cases h
    exact hof hp
  · split at h
    · cases h
    · dsimp only at h
      split at h
      · split at h
        · exact hrecord _ _ _ h
        · cases h
      · cases h

theorem failure_run_ne_key (candidates : List (Candidate α)) (result : CollisionResult α)
    (events : Array (Event α)) : (run request candidates result events).failure ≠ some (.fault .key) := by
  intro h
  induction candidates generalizing result events with
  | nil => cases h
  | cons candidate rest ih =>
    cases candidate with
    | skipped first second why => exact ih _ _ h
    | pair a b =>
      have hpair : (pair request result a b).2.2 ≠ .fail (.fault .key) := pair_ne_key result a b
      rw [run] at h
      generalize pair request result a b = r at hpair h
      obtain ⟨result', more, next⟩ := r
      cases next with
      | proceed => exact ih _ _ h
      | stop => cases h
      | fail e => exact hpair (congrArg Next.fail (Option.some.inj h))

end Check

namespace RobotChecker

variable {c : RobotChecker α} {inv : Inventory α} {m : RobotModel α} {made : List String}
  {s : RobotState α} {known links : List String}

omit [Scalar α] in
/-- A group fails to be found under its name. -/
theorem group_eq_error {name : Option String} {e : Error α} (h : group m name = .error e) :
    e = .requestGroup m.name name := by
  unfold group at h
  split at h
  · cases h
  · split_ifs at h
    cases h
    rfl

/-- Links can be placed if the checker has them and the state has poses of them. -/
theorem canPlace_iff (hc : c.Fits made) (hs : RobotState.LooksUp m s known)
    (hlinks : ∀ link ∈ links, link ∈ m.linkNames) :
    c.CanPlace (s.linkPose m) links ↔ ∀ link ∈ links, link ∈ made ∧ link ∈ known := by
  refine forall₂_congr fun link hlink => and_congr ?_ ⟨fun ⟨p, hp⟩ => ?_, hs.pose link⟩
  · rw [← hc.keys, ← Table.contains_iff, Table.contains, Option.isSome_iff_exists]
  · by_contra hnot
    rw [hs.late link (hlinks link hlink) hnot] at hp
    cases hp

/-- If links of the model cannot be placed, that fails by a key. -/
theorem placed_eq_error (hs : RobotState.LooksUp m s known) (hlinks : ∀ link ∈ links, link ∈ m.linkNames)
    (hnot : ¬ c.CanPlace (s.linkPose m) links) : c.placed inv (s.linkPose m) links = .error (.fault .key) := by
  have hon : ∀ link ∈ links, ∀ e, c.placedOn inv (s.linkPose m) link = .error e → e = .fault .key := by
    intro link hlink e he
    unfold placedOn at he
    split at he
    · cases he
      rfl
    · by_cases hmem : link ∈ known
      · obtain ⟨p, hp⟩ := hs.pose link hmem
        rw [hp] at he
        cases he
      · rw [hs.late link (hlinks link hlink) hmem] at he
        cases he
        rfl
  rw [placed_eq_map]
  cases hall : links.mapM (c.placedOn inv (s.linkPose m)) with
  | error e =>
    obtain ⟨link, hlink, he⟩ := exists_of_mapM_error hall
    rw [hon link hlink e he]
    rfl
  | ok bodies =>
    exfalso
    refine hnot fun link hlink => ?_
    obtain ⟨_, -, hok⟩ := exists_of_mapM hall hlink
    exact (placedOn_eq_ok.mp hok).1

end RobotChecker

namespace Workshop

/-! ## Lookups and queries -/

section Queries

variable {settings : Settings α} {w : Workshop α} {s : RobotState α} {known : List String}

/-- A query on a robot of the workshop, in one of its states. -/
def check (w : Workshop α) (c : RobotChecker α) (s : RobotState α) (allowed : Option AllowedCollisions)
    (request : CollisionRequest α) (result : CollisionResult α) : Check α :=
  c.check w.checkers.inventory w.model (s.linkPose w.model) allowed request result

/-- How a query goes on a robot whose checker was made for an earlier model, in a state that has met
    the known links. -/
structure Answers (w : Workshop α) (made : RobotModel α) (c : RobotChecker α) (s : RobotState α)
    (known : List String) (allowed : Option AllowedCollisions) (request : CollisionRequest α)
    (result : CollisionResult α) : Prop where
  /-- A request that is not accepted is refused, but not by a key. -/
  invalid : ∀ e, request.validate = .error e →
    e ≠ .fault .key ∧ w.check c s allowed request result = .refused result e
  /-- So is one on a group that is unknown. -/
  unknown : request.validate = .ok () → ∀ e, RobotChecker.group w.model request.group = .error e →
    e = .requestGroup w.model.name request.group ∧ w.check c s allowed request result = .refused result e
  /-- A group with a link that came too late makes the query fail by a key. -/
  late : request.validate = .ok () → ∀ links, RobotChecker.group w.model request.group = .ok links →
    (∃ link ∈ links, link ∉ made.linkNames ∨ link ∉ known) →
    w.check c s allowed request result = .refused result (.fault .key)
  /-- On any other group it does not fail by a key. -/
  lookups : request.validate = .ok () → ∀ links, RobotChecker.group w.model request.group = .ok links →
    (∀ link ∈ links, link ∈ made.linkNames ∧ link ∈ known) →
    (w.check c s allowed request result).failure ≠ some (.fault .key)
  /-- It does not fail at all if contacts are counted by a cap without a fraction and no body of the
      checker was released by hand. -/
  completes : request.validate = .ok () → ∀ links, RobotChecker.group w.model request.group = .ok links →
    (∀ link ∈ links, link ∈ made.linkNames ∧ link ∈ known) → (∀ id ∈ c.held, id ∉ w.hand) →
    (request.contacts = true → ∀ x, request.maxContacts ≠ .real x) →
    (w.check c s allowed request result).failure = none

theorem Sound.looksUp (hw : Sound settings w) (hs : (s, known) ∈ w.states) :
    RobotState.LooksUp w.model s known := by
  obtain ⟨hplaces, hknown⟩ := hw.states s known hs
  exact hplaces.looksUp hknown

theorem Sound.answers [LawfulScalar α] (hw : Sound settings w) (hs : (s, known) ∈ w.states) {i : Nat}
    {c : RobotChecker α} (hc : w.checkers.robots[i]? = some c) {made : RobotModel α}
    (hmade : w.made[i]? = some made) (allowed : Option AllowedCollisions) (request : CollisionRequest α)
    (result : CollisionResult α) : Answers w made c s known allowed request result := by
  have hkept := Checkers.kept_of_comes hw.comes
  have hfits : c.Fits made.linkNames := hkept.fits.fits i c made hc hmade
  have hlooks := hw.looksUp hs
  have hgroup : ∀ links, RobotChecker.group w.model request.group = .ok links →
      (c.CanPlace (s.linkPose w.model) links ↔ ∀ link ∈ links, link ∈ made.linkNames ∧ link ∈ known) :=
    fun links hlinks => RobotChecker.canPlace_iff hfits hlooks (hw.grown.mem_linkNames_of_group hlinks)
  have hrefused : ∀ e, c.requested w.checkers.inventory w.model (s.linkPose w.model) request = .error e →
      w.check c s allowed request result = .refused result e := by
    intro e he
    simp only [check, RobotChecker.check, he]
  have hrequested : ∀ links, request.validate = .ok () →
      RobotChecker.group w.model request.group = .ok links →
      (∀ link ∈ links, link ∈ made.linkNames ∧ link ∈ known) →
      c.requested w.checkers.inventory w.model (s.linkPose w.model) request =
        .ok ((c.marked w.checkers.inventory (s.linkPose w.model) links).map Prod.snd) :=
    fun links hvalid hlinks hall => Checkers.requested_of_canPlace hvalid hlinks ((hgroup links hlinks).mpr hall)
  refine ⟨fun e he => ?_, fun hvalid e he => ?_, fun hvalid links hlinks hlate => ?_,
    fun hvalid links hlinks hall => ?_, fun hvalid links hlinks hall hhand hreal => ?_⟩
  · refine ⟨?_, hrefused e (bind_eq_error.mpr (.inl he))⟩
    rintro rfl
    exact CollisionRequest.validate_ne_key he
  · refine ⟨RobotChecker.group_eq_error he, hrefused e (bind_eq_error.mpr (.inr ⟨_, hvalid, ?_⟩))⟩
    exact bind_eq_error.mpr (.inl he)
  · refine hrefused _ (bind_eq_error.mpr (.inr ⟨_, hvalid, bind_eq_error.mpr (.inr ⟨links, hlinks, ?_⟩)⟩))
    refine RobotChecker.placed_eq_error hlooks (hw.grown.mem_linkNames_of_group hlinks) fun hcan => ?_
    obtain ⟨link, hlink, hnot⟩ := hlate
    obtain ⟨hin, hmet⟩ := (hgroup links hlinks).mp hcan link hlink
    exact hnot.elim (absurd hin) (absurd hmet)
  · simp only [check, RobotChecker.check, hrequested links hvalid hlinks hall]
    exact Check.failure_run_ne_key _ _ _
  · have hserving := hkept.serving_self (List.mem_of_getElem? hc) hhand (fun _ => hreal) w.model
      (s.linkPose w.model) allowed result
    rw [hrequested links hvalid hlinks hall] at hserving
    cases hserving with
    | served h => exact h.failure

end Queries

/-! ## A camera that comes late -/

section Camera

open Checkers (aloneParams cubes cubesChecker cubesState mountPose)
open DistanceField (cube)

/-- The two cubes are put together, a checker and a state of them are made, and then a camera is
    mounted on the tool. -/
noncomputable def cameraLate : List (Action ℝ) :=
  [.addLink ⟨"base", none, none, none, [.shape cube], none⟩,
    .addLink ⟨"tool", some "base", some (.fixed (some "mount") mountPose), none, [.shape cube], none⟩,
    .newRobot (some []) aloneParams, .newState .absent,
    .addLink ⟨"camera", some "tool", none, none, [], none⟩, .addGroup "arm" ["base", "tool"]]

/-- The two cubes with the camera, and a group of the links but for the camera. -/
noncomputable def watched : RobotModel ℝ :=
  let mounted := (cubes.addLink ⟨"camera", some "tool", none, none, [], none⟩).model
  { mounted with groups := mounted.groups.set "arm" ["base", "tool"] }

theorem after_cameraLate : ∃ inv, (start .plain (some "arm") .standard 0).after cameraLate =
    ⟨watched, [(cubesState, ["base", "tool"])], [cubes], [], ⟨inv, [cubesChecker], []⟩⟩ := by
  obtain ⟨_, _, _, _, inv, -, -, -, hmake⟩ := Checkers.exists_make_cubes
  let built : Workshop ℝ := ⟨cubes, [], [], [], ⟨Inventory.start .standard 0, [], []⟩⟩
  let checked : Workshop ℝ := ⟨cubes, [], [cubes], [], ⟨inv, [cubesChecker], []⟩⟩
  have hrobot : built.step (.newRobot (some []) aloneParams) = checked := by
    rw [step, hmake]
    rfl
  have hstate : checked.step (.newState .absent) = checked.withState cubesState ["base", "tool"] := by
    rw [step, Checkers.atDefaults_cubes]
    rfl
  have hbuilt : (start .plain (some "arm") .standard 0).after (cameraLate.take 2) = built := rfl
  have hafter : (start .plain (some "arm") .standard 0).after cameraLate =
      ((start .plain (some "arm") .standard 0).after (cameraLate.take 2)).after (cameraLate.drop 2) := rfl
  refine ⟨inv, hafter.trans ?_⟩
  rw [hbuilt]
  show (built.step (.newRobot (some []) aloneParams)).after (cameraLate.drop 3) = _
  rw [hrobot]
  show (checked.step (.newState .absent)).after (cameraLate.drop 4) = _
  rw [hstate]
  rfl

theorem linkNames_watched : watched.linkNames = ["base", "tool", "camera"] := rfl

theorem checked_cameraLate : ∀ a ∈ cameraLate, a.Checked := by
  simp [cameraLate, Action.Checked]

end Camera

/-- Whatever was done in a workshop, and in whatever order, the pose of a link is found if the state has
    met the link, and its name is told if the model does not have it. A query on a group does not fail
    by a lookup if the checker and the state have met all links of the group. What fails without
    telling a name is the lookup of a link that joined the model later, and a query on a group with
    such a link. -/
theorem lookups_after [LawfulScalar α] (kind : ModelKind) (name : Option String) (settings : Settings α)
    (caches : Nat) (actions : List (Action α)) (hactions : ∀ a ∈ actions, a.Checked) :
    let w := (start kind name settings caches).after actions
    w.checkers.robots.length = w.made.length ∧
      ∀ s known, (s, known) ∈ w.states → RobotState.LooksUp w.model s known ∧
        ∀ (i : Nat) (c : RobotChecker α) (made : RobotModel α), w.checkers.robots[i]? = some c →
          w.made[i]? = some made → ∀ allowed request result,
            Answers w made c s known allowed request result := by
  intro w
  have hw : Sound settings w := sound_after (sound_start kind name settings caches) hactions
  refine ⟨(Checkers.kept_of_comes hw.comes).fits.size, fun s known hs => ⟨hw.looksUp hs, ?_⟩⟩
  intro i c made hc hmade allowed request result
  exact hw.answers hs hc hmade allowed request result

/-- A request for three contacts on the group without the camera. -/
noncomputable def armContacts : CollisionRequest ℝ := ⟨some "arm", true, .int 3, .int 1, false, false⟩

/-- With the camera mounted, the poses of the other links are found, and a query on the group without it
    completes. -/
theorem lookups_after_camera : let w := (start .plain (some "arm") .standard 0).after cameraLate
    (∀ a ∈ cameraLate, a.Checked) ∧ (Checkers.cubesState, ["base", "tool"]) ∈ w.states ∧
    Checkers.cubesChecker ∈ w.checkers.robots ∧
    (∃ p, Checkers.cubesState.linkPose w.model "tool" = .ok p) ∧
    Checkers.cubesState.linkPose w.model "wrist" = .error (.unknownLink (some "arm") "wrist") ∧
    (w.check Checkers.cubesChecker Checkers.cubesState none armContacts .empty).failure = none := by
  intro w
  obtain ⟨inv, hw⟩ := after_cameraLate
  have hlookups := lookups_after .plain (some "arm") .standard 0 cameraLate checked_cameraLate
  rw [hw] at hlookups
  obtain ⟨-, hstates⟩ := hlookups
  obtain ⟨hlooks, hanswers⟩ := hstates _ _ (List.mem_singleton_self _)
  have hanswer := hanswers 0 Checkers.cubesChecker Checkers.cubes rfl rfl none armContacts .empty
  rw [show w = _ from hw]
  refine ⟨checked_cameraLate, List.mem_singleton_self _, List.mem_singleton_self _,
    hlooks.pose "tool" (by simp), hlooks.unknown "wrist" (by simp [linkNames_watched]), ?_⟩
  refine hanswer.completes rfl ["base", "tool"] rfl (fun link hlink => ⟨hlink, hlink⟩) (by simp) fun _ => nofun

/-- The camera is a link of the model, but its pose is not found, and a query on all links fails without
    telling its name. -/
theorem exists_lookup_of_late_link : let w := (start .plain (some "arm") .standard 0).after cameraLate
    (∀ a ∈ cameraLate, a.Checked) ∧
    ∃ s known c, (s, known) ∈ w.states ∧ c ∈ w.checkers.robots ∧ "camera" ∈ w.model.linkNames ∧
      s.linkPose w.model "camera" = .error (.fault .key) ∧
      RobotChecker.group w.model (some wholeBody) = .ok ["base", "tool", "camera"] ∧
      w.check c s none .standard .empty = .refused .empty (.fault .key) := by
  intro w
  obtain ⟨inv, hw⟩ := after_cameraLate
  have hsound := sound_after (sound_start .plain (some "arm") .standard 0) checked_cameraLate
  rw [hw] at hsound
  have hstate : (Checkers.cubesState, ["base", "tool"]) ∈ [(Checkers.cubesState, ["base", "tool"])] :=
    List.mem_singleton_self _
  have hanswer := hsound.answers hstate (i := 0) (c := Checkers.cubesChecker) rfl rfl none .standard .empty
  have hcamera : "camera" ∈ watched.linkNames := by simp [linkNames_watched]
  rw [show w = _ from hw]
  refine ⟨checked_cameraLate, Checkers.cubesState, _, Checkers.cubesChecker, hstate, List.mem_singleton_self _,
    hcamera, ?_, rfl, ?_⟩
  · exact (hsound.looksUp hstate).late "camera" hcamera (by simp)
  · exact hanswer.late rfl ["base", "tool", "camera"] rfl ⟨"camera", by simp, .inr (by simp)⟩

end Workshop

end Clearance
