import Clearance.Session.Basic

/-!
# Models and states of a session

The model at hand is the one that was begun last. A state belongs to the model that was at hand when
it was made, and follows what is added to that model later.

* `Session.newModel`, `Session.editModel`, `Session.addLink`: models.
* `Session.newState`, `Session.saveState`, `Session.useState`: states. A saved state is a copy; a
  state that is used again is the saved one itself.
* `Session.change`: joint values of the state at hand.
* `Session.editAllowed`: the table of allowed collisions.
-/

namespace Clearance.Session

variable {α : Type}

/-! ## Models -/

/-- The model at a place. -/
def modelAt (place : Nat) : SessionM α (RobotModel α) := do require .attribute ((← get).models[place]?)

/-- The model at hand. -/
def model : SessionM α (RobotModel α) := do require .attribute (← get).models.back?

/-- Begins a model, which is at hand from now on. -/
def newModel (m : RobotModel α) : SessionM α Unit := modify fun s => { s with models := s.models.push m }

/-- Puts a model in the place of the one at hand. -/
def setModel (m : RobotModel α) : SessionM α Unit :=
  modify fun s => { s with models := s.models.setIfInBounds (s.models.size - 1) m }

/-- Changes the model at hand, unless the change is refused. -/
def editModel (f : RobotModel α → Except (Error α) (RobotModel α)) : SessionM α Unit := do
  setModel (← f (← model))

variable [Scalar α]

/-- Adds a link to the model at hand. -/
def addLink (source : LinkSource α) : SessionM α (Link α) := do
  let added := (← model).addLink source
  setModel added.model
  added.outcome

/-! ## States -/

/-- The state at hand, its place and its model. -/
def current : SessionM α (RobotState α × Nat × RobotModel α) := do
  let place ← require .attribute (← get).state
  let (s, owner) ← require .attribute ((← get).states[place]?)
  return (s, place, ← modelAt owner)

/-- Puts a state in a place. -/
def setState (place : Nat) (s : RobotState α) : SessionM α Unit :=
  modify fun session => { session with states := session.states.modify place fun old => (s, old.2) }

/-- Makes a state of the model at hand, in which all joints have their default values. -/
def newState (root : PoseSource α) : SessionM α Unit := do
  let s ← RobotState.atDefaults (← model) root
  modify fun session =>
    { session with
      states := session.states.push (s, session.models.size - 1)
      state := some session.states.size }

/-- Saves a copy of the state at hand under a label. -/
def saveState (label : String) : SessionM α Unit := do
  let (s, place, m) ← current
  let fresh ← s.copy m
  modify fun session =>
    { session with
      saved := session.saved.set label session.states.size
      states := session.states.push (fresh, ((session.states[place]?).map Prod.snd).getD 0) }

/-- Takes up a state that was saved under a label. -/
def useState (label : String) : SessionM α Unit := do
  let place ← require .key ((← get).saved.find? label)
  modify fun session => { session with state := some place }

/-- Changes joint values of the state at hand, and gives all of its values. -/
def change (f : RobotModel α → RobotState α → RobotState.Change α) : SessionM α (Table String α) := do
  let (s, place, m) ← current
  let c := f m s
  setState place c.state
  reportAll c.events
  match c.failure with
  | some e => throw e
  | none => return c.state.values

/-- Overrides the pose of a link in the state at hand. -/
def override (link : String) (pose : PoseSource α) : SessionM α Unit := do
  let (s, place, m) ← current
  setState place (← s.override m link pose)

/-- The poses of links in the state at hand. -/
def linkPoses : SessionM α (LinkPoses α) := do
  match (← get).state with
  | none => return fun _ => .error (.fault .attribute)
  | some _ => do
    let (s, _, m) ← current
    return s.linkPose m

/-- The names of all links and their poses in the state at hand. -/
def transforms : SessionM α (List (String × Pose α)) := do
  let (s, _, m) ← current
  m.linkNames.mapM fun name => do return (name, ← s.linkPose m name)

/-! ## Allowed collisions -/

/-- The table of allowed collisions. -/
def allowedTable : SessionM α AllowedCollisions := do require .attribute (← get).allowed

/-- Takes another table of allowed collisions, or none. -/
def setAllowed (table : Option AllowedCollisions) : SessionM α Unit := modify fun s => { s with allowed := table }

/-- Changes the table of allowed collisions. -/
def editAllowed (f : AllowedCollisions → AllowedCollisions) : SessionM α Unit := do
  setAllowed (some (f (← allowedTable)))

end Clearance.Session
