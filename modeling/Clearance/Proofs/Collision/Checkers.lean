import Clearance.Proofs.Collision.Accounts
import Clearance.Proofs.Robot.StateRuns
import Clearance.Collision.World

/-!
# What can come about with checkers

Robot checkers and worlds stand on one inventory. They are made, or cannot be made, bodies are
attached to links and taken off, obstacles are added and taken away, bodies are released by hand, and
others use the same caches. All of this is one relation, `Checkers.History`, which keeps the models
of the robots, the bodies that were released by hand and a log of what was done with the bodies. What
is admitted in a history is told by rules; the four kinds of histories that the results are about are
this relation under rules of their own, seen with or without what it keeps.

* `Checkers`, `Checkers.Action`, `Checkers.step`: what is at hand, and what can be done with it.
* `Checkers.Deed`, `Checkers.deed?`: what an action does with the bodies, unless it fails.
* `Checkers.History`: what can come about under rules.
* `Checkers.Recorded`, `Checkers.Comes`: everything, with the log and without it.
* `Checkers.Arises`, `Checkers.Reachable`: what can come about on one cache that all share, and what
  of it can come about as long as nothing fails after a field was obtained for it.
* `Checkers.Every`, `Checkers.every_of_history`: invariants that hold of the inventory and of each
  checker.
-/

namespace Clearance

/-! ## What bodies are built of -/

/-- The body that an attachment to a link asks for. -/
def LinkGeometry.source {α : Type} (g : LinkGeometry α) (a : Attachment α) : BodySource α :=
  ⟨a.name, a.touch.map fun touch => BodyRole.attached g.link touch, a.shapes, a.poses⟩

/-- The body that an obstacle asks for. -/
def WorldChecker.source {α : Type} (name : String) (shape : ShapeSource α) (pose : Pose α) : BodySource α :=
  ⟨name, .ok (.obstacle pose), [shape], none⟩

/-! ## Checkers -/

/-- Robot checkers and worlds on one inventory, each kind in the order in which they were made. -/
structure Checkers (α : Type) where
  inventory : Inventory α
  robots : List (RobotChecker α)
  worlds : List (WorldChecker α)

namespace Checkers

variable {α : Type}

/-- What can be done with checkers, which are named by their places, and with bodies. -/
inductive Action (α : Type) where
  | attach (robot : Nat) (link : String) (a : Attachment α)
  | detach (robot : Nat) (link name : String)
  /-- Detaches all bodies from a link, or from all links. -/
  | detachAll (robot : Nat) (link : Option String)
  | add (world : Nat) (name : String) (shape : ShapeSource α) (pose : PoseSource α)
  | remove (world : Nat) (name : String)
  | clear (world : Nat)
  /-- Releases a body that was built for any of the checkers, be it released already or not. -/
  | release (body : Nat)

/-- The checkers after a computation: changed by what it gives, or the inventory alone if it
    fails. -/
def after {β : Type} (s : Checkers α) (x : InventoryM α β) (change : β → Checkers α → Checkers α) :
    Checkers α :=
  match x.run s.inventory with
  | (.ok b, inv) => change b { s with inventory := inv }
  | (.error _, inv) => { s with inventory := inv }

/-- The checkers after a computation on the robot checker at a place, which gives another in its
    place. -/
def onRobot {β : Type} (s : Checkers α) (i : Nat) (x : RobotChecker α → InventoryM α β)
    (result : β → RobotChecker α) : Checkers α :=
  (s.robots[i]?).elim s fun c => s.after (x c) fun b s' =>
    { s' with robots := s'.robots.set i (result b) }

/-- The checkers after a computation on the world at a place, which gives another in its place. -/
def onWorld {β : Type} (s : Checkers α) (i : Nat) (x : WorldChecker α → InventoryM α β)
    (result : β → WorldChecker α) : Checkers α :=
  (s.worlds[i]?).elim s fun w => s.after (x w) fun b s' =>
    { s' with worlds := s'.worlds.set i (result b) }

/-- The body that an action releases by hand. -/
def Action.byHand : Action α → List Nat
  | .release body => [body]
  | _ => []

variable [Scalar α]

/-- The checkers after an action. -/
def step (s : Checkers α) : Action α → Checkers α
  | .attach i link a => s.onRobot i (·.attach link a) Prod.fst
  | .detach i link name => s.onRobot i (·.detach link name) id
  | .detachAll i link => s.onRobot i (·.detachAll link) id
  | .add i name shape pose => s.onWorld i (·.add name shape pose) Prod.fst
  | .remove i name => s.onWorld i (·.remove name) id
  | .clear i => s.onWorld i (·.clear) id
  | .release body => s.after (Inventory.release body) fun _ s' => s'

/-- An action fails after a field was obtained for the body that it builds. -/
def FailsLate (s : Checkers α) : Action α → Prop
  | .attach i link a => ∃ c g, s.robots[i]? = some c ∧ c.geometry link = .ok g ∧
      Inventory.FailsLate (g.source a) g.params s.inventory
  | .add i name shape pose => ∃ w p, s.worlds[i]? = some w ∧ pose.toPose = .ok p ∧
      Inventory.FailsLate (WorldChecker.source name shape p) w.params s.inventory
  | _ => False

/-- The poses that an action is given can be copied. -/
def Action.Checked : Action α → Prop
  | .add _ _ _ pose => pose.Checked
  | _ => True

/-! ## Deeds -/

/-- What was done with the bodies of checkers, which are named by their places. -/
inductive Deed where
  | attached (robot : Nat) (link name : String) (body : Nat)
  | detached (robot : Nat) (link name : String)
  | detachedFrom (robot : Nat) (link : String)
  | detachedAll (robot : Nat)
  | added (world : Nat) (name : String) (body : Nat)
  | removed (world : Nat) (name : String)
  | cleared (world : Nat)

/-- The deed of an action that takes all bodies off a link, or off all links. -/
def detachedDeed (i : Nat) : Option String → Deed
  | some link => .detachedFrom i link
  | none => .detachedAll i

/-- What a computation on the inventory gives, if it does not fail. -/
def outcome {β : Type} (s : Checkers α) (x : InventoryM α β) : Option β := (x.run s.inventory).1.toOption

/-- What a computation on the robot checker at a place gives, if there is one and it does not fail. -/
def outcomeOnRobot {β : Type} (s : Checkers α) (i : Nat) (x : RobotChecker α → InventoryM α β) : Option β :=
  (s.robots[i]?).bind fun c => s.outcome (x c)

/-- What a computation on the world at a place gives, if there is one and it does not fail. -/
def outcomeOnWorld {β : Type} (s : Checkers α) (i : Nat) (x : WorldChecker α → InventoryM α β) : Option β :=
  (s.worlds[i]?).bind fun w => s.outcome (x w)

/-- What an action does with the bodies, unless it fails. -/
def deed? (s : Checkers α) : Action α → Option Deed
  | .attach i link a => (s.outcomeOnRobot i (·.attach link a)).map fun r => .attached i link a.name r.2
  | .detach i link name => (s.outcomeOnRobot i (·.detach link name)).map fun _ => .detached i link name
  | .detachAll i link => (s.outcomeOnRobot i (·.detachAll link)).map fun _ => detachedDeed i link
  | .add i name shape pose => (s.outcomeOnWorld i (·.add name shape pose)).map fun r => .added i name r.2
  | .remove i name => (s.outcomeOnWorld i (·.remove name)).map fun _ => .removed i name
  | .clear i => (s.outcomeOnWorld i (·.clear)).map fun _ => .cleared i
  | .release _ => none

/-! ## Histories -/

/-- What is admitted in a history. -/
structure Rules (α : Type) where
  /-- How many caches there may be at first. -/
  caches : Nat → Prop
  /-- The models and the parameters with which robot checkers are made. -/
  robot : RobotModel α → BodyParams α → Prop
  /-- The parameters with which worlds are made. -/
  world : BodyParams α → Prop
  /-- Robot checkers may be asked for that cannot be made. -/
  refusals : Prop
  action : Checkers α → Action α → Prop
  /-- The caches that others may leave. -/
  others : Array (FieldCache α) → Prop

/-- The checkers that can come about under rules, on an inventory that starts without bodies, with the
    models of the robots, the bodies that were released by hand, and the log of what was done with the
    bodies. Robot checkers and worlds are made, or cannot be made; actions are taken, in vain or not;
    and others leave the caches as they please. -/
inductive History (rules : Rules α) (settings : Settings α) :
    List (RobotModel α) → List Nat → List Deed → Checkers α → Prop where
  | start (caches : Nat) :
      rules.caches caches → History rules settings [] [] [] ⟨Inventory.start settings caches, [], []⟩
  | robot {models : List (RobotModel α)} {hand : List Nat} {log : List Deed} {s : Checkers α}
      {m : RobotModel α} {neighbours : Option (List (String × String))} {params : BodyParams α}
      {c : RobotChecker α} {inv : Inventory α} :
      History rules settings models hand log s → rules.robot m params →
      (RobotChecker.make m neighbours params).run s.inventory = (.ok c, inv) →
      History rules settings (models ++ [m]) hand log { s with inventory := inv, robots := s.robots ++ [c] }
  | refused {models : List (RobotModel α)} {hand : List Nat} {log : List Deed} {s : Checkers α}
      {m : RobotModel α} {neighbours : Option (List (String × String))} {params : BodyParams α}
      {e : Error α} {inv : Inventory α} :
      History rules settings models hand log s → rules.refusals → rules.robot m params →
      (RobotChecker.make m neighbours params).run s.inventory = (.error e, inv) →
      History rules settings models hand log { s with inventory := inv }
  | world {models : List (RobotModel α)} {hand : List Nat} {log : List Deed} {s : Checkers α}
      (params : BodyParams α) :
      History rules settings models hand log s → rules.world params →
      History rules settings models hand log { s with worlds := s.worlds ++ [WorldChecker.empty params] }
  | step {models : List (RobotModel α)} {hand : List Nat} {log : List Deed} {s : Checkers α}
      (a : Action α) :
      History rules settings models hand log s → rules.action s a →
      History rules settings models (a.byHand ++ hand) (log ++ (s.deed? a).toList) (s.step a)
  | others {models : List (RobotModel α)} {hand : List Nat} {log : List Deed} {s : Checkers α}
      (caches : Array (FieldCache α)) :
      History rules settings models hand log s → rules.others caches →
      History rules settings models hand log { s with inventory := { s.inventory with caches := caches } }

/-- Everything may happen, on any number of caches, to robots whose models are grown. -/
def Rules.free : Rules α where
  caches _ := True
  robot m _ := m.Grown
  world _ := True
  refusals := True
  action _ a := a.Checked
  others _ := True

/-- Everything may happen on one cache that all share. -/
def Rules.shared : Rules α where
  caches n := n = 1
  robot _ params := params.cache = some 0
  world params := params.cache = some 0
  refusals := True
  action _ _ := True
  others caches := caches.size = 1

/-- On one cache that all share and no others use, nothing may fail after a field was obtained for
    it. -/
def Rules.timely : Rules α where
  caches n := n = 1
  robot _ params := params.cache = some 0
  world params := params.cache = some 0
  refusals := False
  action s a := ¬s.FailsLate a
  others _ := False

/-- What can come about, with the models of the robots, the bodies that were released by hand, and the
    log of what was done with the bodies. -/
def Recorded (settings : Settings α) :
    List (RobotModel α) → List Nat → List Deed → Checkers α → Prop := History .free settings

/-- What can come about, with the models of the robots and the bodies that were released by hand. -/
def Comes (settings : Settings α) (models : List (RobotModel α)) (hand : List Nat) (s : Checkers α) : Prop :=
  ∃ log, Recorded settings models hand log s

/-- What can come about on one cache that all share. -/
def Arises (settings : Settings α) (s : Checkers α) : Prop :=
  ∃ models hand log, History .shared settings models hand log s

/-- What can come about on one cache that all share, as long as nothing fails late. -/
def Reachable (settings : Settings α) (s : Checkers α) : Prop :=
  ∃ models hand log, History .timely settings models hand log s

/-! ## Invariants -/

/-- What holds of the inventory, of each robot checker, and of each world. -/
structure Every (I : Inventory α → Prop) (R : RobotChecker α → Prop) (W : WorldChecker α → Prop)
    (s : Checkers α) : Prop where
  inventory : I s.inventory
  robots : ∀ c ∈ s.robots, R c
  worlds : ∀ w ∈ s.worlds, W w

/-- A run leaves an inventory of which `I` holds, and what it gives satisfies `post`. -/
structure Leaves {β : Type} (I : Inventory α → Prop) (post : β → Prop)
    (r : Except (Error α) β × Inventory α) : Prop where
  inventory : I r.2
  result : ∀ b, r.1 = .ok b → post b

section Every

variable {β : Type} {I : Inventory α → Prop} {R : RobotChecker α → Prop} {W : WorldChecker α → Prop}
  {s : Checkers α}

omit [Scalar α] in
theorem Every.after (hs : s.Every I R W) {x : InventoryM α β} {post : β → Prop}
    (hx : Leaves I post (x.run s.inventory)) {change : β → Checkers α → Checkers α}
    (hc : ∀ b s', post b → Every I R W s' → Every I R W (change b s')) : (s.after x change).Every I R W := by
  unfold Checkers.after
  generalize x.run s.inventory = r at hx ⊢
  obtain ⟨outcome, inv⟩ := r
  cases outcome with
  | ok b => exact hc b _ (hx.result b rfl) ⟨hx.inventory, hs.robots, hs.worlds⟩
  | error e => exact ⟨hx.inventory, hs.robots, hs.worlds⟩

omit [Scalar α] in
theorem Every.onRobot (hs : s.Every I R W) {i : Nat} {x : RobotChecker α → InventoryM α β}
    {result : β → RobotChecker α}
    (hx : ∀ c, s.robots[i]? = some c → R c → Leaves I (fun b => R (result b)) ((x c).run s.inventory)) :
    (s.onRobot i x result).Every I R W := by
  unfold Checkers.onRobot
  cases hi : s.robots[i]? with
  | none => exact hs
  | some c =>
    rw [Option.elim_some]
    refine hs.after (hx c hi (hs.robots c (List.mem_of_getElem? hi))) fun b s' hb hs' => ?_
    refine ⟨hs'.inventory, fun c' hc' => ?_, hs'.worlds⟩
    rcases List.mem_or_eq_of_mem_set hc' with hc' | rfl
    · exact hs'.robots c' hc'
    · exact hb

omit [Scalar α] in
theorem Every.onWorld (hs : s.Every I R W) {i : Nat} {x : WorldChecker α → InventoryM α β}
    {result : β → WorldChecker α}
    (hx : ∀ w, s.worlds[i]? = some w → W w → Leaves I (fun b => W (result b)) ((x w).run s.inventory)) :
    (s.onWorld i x result).Every I R W := by
  unfold Checkers.onWorld
  cases hi : s.worlds[i]? with
  | none => exact hs
  | some w =>
    rw [Option.elim_some]
    refine hs.after (hx w hi (hs.worlds w (List.mem_of_getElem? hi))) fun b s' hb hs' => ?_
    refine ⟨hs'.inventory, hs'.robots, fun w' hw' => ?_⟩
    rcases List.mem_or_eq_of_mem_set hw' with hw' | rfl
    · exact hs'.worlds w' hw'
    · exact hb

/-- What holds of the first inventory and is kept by all that the rules admit holds of all checkers
    that can come about under them. -/
theorem every_of_history {rules : Rules α} {settings : Settings α} {models : List (RobotModel α)}
    {hand : List Nat} {log : List Deed}
    (hstart : ∀ caches, rules.caches caches → I (Inventory.start settings caches))
    (hrobot : ∀ m neighbours params inv c inv', rules.robot m params → I inv →
      (RobotChecker.make m neighbours params).run inv = (.ok c, inv') → I inv' ∧ R c)
    (hrefused : ∀ m neighbours params inv e inv', rules.refusals → rules.robot m params → I inv →
      (RobotChecker.make m neighbours params).run inv = (.error e, inv') → I inv')
    (hworld : ∀ params, rules.world params → W (WorldChecker.empty params))
    (hstep : ∀ s a, Every I R W s → rules.action s a → Every I R W (s.step a))
    (hothers : ∀ inv caches, rules.others caches → I inv → I { inv with caches := caches })
    (h : History rules settings models hand log s) : s.Every I R W := by
  induction h with
  | start caches hcaches =>
    exact ⟨hstart caches hcaches, fun _ h => absurd h List.not_mem_nil, fun _ h => absurd h List.not_mem_nil⟩
  | @robot models hand log s m neighbours params c inv _ hm hrun ih =>
    obtain ⟨hinv, hc⟩ := hrobot m neighbours params s.inventory c inv hm ih.inventory hrun
    refine ⟨hinv, fun c' hc' => ?_, ih.worlds⟩
    rcases List.mem_append.mp hc' with hc' | hc'
    · exact ih.robots c' hc'
    · rw [List.mem_singleton.mp hc']
      exact hc
  | @refused models hand log s m neighbours params e inv _ hrefusals hm hrun ih =>
    exact ⟨hrefused m neighbours params s.inventory e inv hrefusals hm ih.inventory hrun, ih.robots, ih.worlds⟩
  | world params _ hp ih =>
    refine ⟨ih.inventory, ih.robots, fun w hw => ?_⟩
    rcases List.mem_append.mp hw with hw | hw
    · exact ih.worlds w hw
    · rw [List.mem_singleton.mp hw]
      exact hworld params hp
  | step a _ ha ih => exact hstep _ a ih ha
  | others caches _ hcaches ih => exact ⟨hothers _ caches hcaches ih.inventory, ih.robots, ih.worlds⟩

end Every

end Checkers

end Clearance
