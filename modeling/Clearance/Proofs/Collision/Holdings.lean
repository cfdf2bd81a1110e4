import Clearance.Proofs.Collision.Custody

/-!
# What checkers hold

Whatever comes about with robot checkers and worlds, whatever caches they use, each body is held by one
checker and for one link, and it has lost its contents only if it was released by hand.

* `Checkers.held`: the bodies that checkers hold.
* `Checkers.Kept`: the invariant, with its step `Checkers.Kept.step` and its run
  `Checkers.kept_of_comes`.
-/

namespace Clearance.Checkers

variable {α : Type}

/-- The places of all bodies that the checkers hold. -/
def held (s : Checkers α) : List Nat :=
  s.robots.flatMap RobotChecker.held ++ s.worlds.flatMap WorldChecker.held

/-! ## The invariant -/

variable [Scalar α]

/-- Each robot checker has the links of its model. -/
structure FitAll (robots : List (RobotChecker α)) (models : List (RobotModel α)) : Prop where
  size : robots.length = models.length
  fits : ∀ (i : Nat) (c : RobotChecker α) (m : RobotModel α), robots[i]? = some c → models[i]? = some m →
    c.Fits m.linkNames

/-- Each body is held once and is there; it is not released unless that was done by hand. The robot
    checkers have the links of their models, and the poses of obstacles can be copied. -/
structure Kept (models : List (RobotModel α)) (hand : List Nat) (s : Checkers α) : Prop where
  held : s.inventory.Held s.held
  released : ∀ id ∈ s.held, ∃ b, s.inventory.body? id = some b ∧ (b.isReleased = true → id ∈ hand)
  fits : FitAll s.robots models
  posed : s.inventory.Posed

variable {models : List (RobotModel α)} {hand : List Nat} {s s' : Checkers α}

open Inventory (Exchange Held Hands)

/-- An exchange of bodies keeps the invariant. -/
theorem Kept.exchange (hs : s.Kept models hand) (h : Exchange s.inventory s'.inventory s.held s'.held)
    {models' : List (RobotModel α)} (hfits : FitAll s'.robots models') : s'.Kept models' hand := by
  refine ⟨hs.held.exchange h, fun id hid => ?_, hfits, h.posed hs.posed⟩
  rcases h.origin id hid with ⟨hold, hsame⟩ | ⟨-, b, hb, hreleased⟩
  · rw [hsame]
    exact hs.released id hold
  · exact ⟨b, hb, fun h => absurd h (by rw [hreleased]; exact Bool.false_ne_true)⟩

omit [Scalar α] in
/-- One of a list and another in its place, with what each of them holds. -/
theorem exists_flatMap_split {β : Type} {xs : List β} {i : Nat} {x : β} (h : xs[i]? = some x) (f : β → List Nat) :
    ∃ rest, (xs.flatMap f).Perm (f x ++ rest) ∧ ∀ y, ((xs.set i y).flatMap f).Perm (f y ++ rest) := by
  obtain ⟨hi, rfl⟩ := List.getElem?_eq_some_iff.mp h
  refine ⟨(xs.eraseIdx i).flatMap f, ?_, fun y => ?_⟩
  · exact ((List.getElem_cons_eraseIdx_perm hi).symm.flatMap_right f).trans (.of_eq List.flatMap_cons)
  · exact ((List.set_perm_cons_eraseIdx hi y).flatMap_right f).trans (.of_eq List.flatMap_cons)

omit [Scalar α] in
theorem FitAll.set {robots : List (RobotChecker α)} (h : FitAll robots models) {i : Nat} {m : RobotModel α}
    (hm : models[i]? = some m) {c : RobotChecker α} (hc : c.Fits m.linkNames) :
    FitAll (robots.set i c) models := by
  refine ⟨by rw [List.length_set, h.size], fun j c' m' hj hm' => ?_⟩
  rw [List.getElem?_set] at hj
  split at hj
  · rename_i heq
    subst heq
    cases hm.symm.trans hm'
    split at hj
    · cases hj
      exact hc
    · cases hj
  · exact h.fits j c' m' hj hm'

omit [Scalar α] in
theorem FitAll.concat {robots : List (RobotChecker α)} (h : FitAll robots models) {m : RobotModel α}
    {c : RobotChecker α} (hc : c.Fits m.linkNames) : FitAll (robots ++ [c]) (models ++ [m]) := by
  refine ⟨by simp [h.size], fun i c' m' hi hm' => ?_⟩
  rw [List.getElem?_append] at hi hm'
  rw [← h.size] at hm'
  split at hi
  · rename_i hlt
    rw [if_pos hlt] at hm'
    exact h.fits i c' m' hi hm'
  · rename_i hlt
    rw [if_neg hlt] at hm'
    obtain rfl := List.mem_singleton.mp (List.mem_of_getElem? hi)
    obtain rfl := List.mem_singleton.mp (List.mem_of_getElem? hm')
    exact hc

omit [Scalar α] in
/-- Of what is held in all, a part is held once and is there. -/
theorem held_of_perm {inv : Inventory α} {all part rest : List Nat} (h : inv.Held all)
    (hperm : all.Perm (part ++ rest)) : inv.Held part := by
  refine ⟨(List.nodup_append.mp (hperm.nodup_iff.mp h.nodup)).1, fun id hid => h.present id ?_⟩
  exact hperm.mem_iff.mpr (List.mem_append_left _ hid)

/-- What a computation on one robot checker exchanges is exchanged among all that is held. -/
theorem Kept.exchange_onRobot {β : Type} (hs : s.Kept models hand) {i : Nat}
    {x : RobotChecker α → InventoryM α β} {result : β → RobotChecker α}
    (hx : ∀ c names, s.inventory.Held c.held → c.Fits names →
      Hands s.inventory c.held (fun b => (result b).held) (fun b => (result b).Fits names)
        ((x c).run s.inventory)) :
    Exchange s.inventory (s.onRobot i x result).inventory s.held (s.onRobot i x result).held ∧
      FitAll (s.onRobot i x result).robots models := by
  unfold Checkers.onRobot
  cases hi : s.robots[i]? with
  | none => exact ⟨.refl hs.held.nodup, hs.fits⟩
  | some c =>
    obtain ⟨m, hm⟩ : ∃ m, models[i]? = some m :=
      ⟨_, List.getElem?_eq_getElem (hs.fits.size ▸ (List.getElem?_eq_some_iff.mp hi).1)⟩
    obtain ⟨rest, hheld, hset⟩ := exists_flatMap_split hi RobotChecker.held
    have hall : s.held.Perm (c.held ++ (rest ++ s.worlds.flatMap WorldChecker.held)) := by
      rw [← List.append_assoc]
      exact hheld.append_right _
    have hc := hx c m.linkNames (held_of_perm hs.held hall) (hs.fits.fits i c m hi hm)
    rw [Option.elim_some]
    unfold Checkers.after
    generalize (x c).run s.inventory = r at hc ⊢
    cases hc with
    | error he => exact ⟨he.within hs.held hall hall, hs.fits⟩
    | @ok b inv he hfits =>
      refine ⟨he.within hs.held hall ?_, hs.fits.set hm hfits⟩
      rw [← List.append_assoc]
      exact (hset _).append_right _

/-- What a computation on one world exchanges is exchanged among all that is held. -/
theorem Kept.exchange_onWorld {β : Type} (hs : s.Kept models hand) {i : Nat}
    {x : WorldChecker α → InventoryM α β} {result : β → WorldChecker α}
    (hx : ∀ w, s.inventory.Held w.held →
      Hands s.inventory w.held (fun b => (result b).held) (fun _ => True) ((x w).run s.inventory)) :
    Exchange s.inventory (s.onWorld i x result).inventory s.held (s.onWorld i x result).held ∧
      FitAll (s.onWorld i x result).robots models := by
  unfold Checkers.onWorld
  cases hi : s.worlds[i]? with
  | none => exact ⟨.refl hs.held.nodup, hs.fits⟩
  | some w =>
    obtain ⟨rest, hheld, hset⟩ := exists_flatMap_split hi WorldChecker.held
    have hall : s.held.Perm (w.held ++ (s.robots.flatMap RobotChecker.held ++ rest)) :=
      (hheld.append_left _).trans (List.perm_append_comm_assoc ..)
    have hw := hx w (held_of_perm hs.held hall)
    rw [Option.elim_some]
    unfold Checkers.after
    generalize (x w).run s.inventory = r at hw ⊢
    cases hw with
    | error he => exact ⟨he.within hs.held hall hall, hs.fits⟩
    | @ok b inv he _ =>
      refine ⟨he.within hs.held hall ?_, hs.fits⟩
      exact ((hset _).append_left _).trans (List.perm_append_comm_assoc ..)

/-- A body that is released by hand stays with its holder. -/
theorem Kept.release (hs : s.Kept models hand) (body : Nat) :
    (s.step (.release body)).Kept models (body :: hand) := by
  have hinv : (s.step (.release body)).inventory = s.inventory.releaseBody body := rfl
  refine ⟨⟨hs.held.nodup, fun id hid => ?_⟩, fun id hid => ?_, hs.fits, ?_⟩
  · rw [hinv, Inventory.size_releaseBody]
    exact hs.held.present id hid
  · obtain ⟨b, hb, hreleased⟩ := hs.released id hid
    rw [hinv, Inventory.body?_releaseBody]
    split
    · rename_i heq
      exact ⟨b.released, by rw [hb]; rfl, fun _ => heq ▸ List.mem_cons_self⟩
    · exact ⟨b, hb, fun h => List.mem_cons_of_mem _ (hreleased h)⟩
  · exact hs.posed.releaseBody body

/-- An action that releases no body by hand exchanges bodies, whether it fails or not. -/
theorem Kept.exchange_step (hs : s.Kept models hand) {a : Action α} (ha : a.Checked) (hhand : a.byHand = []) :
    Exchange s.inventory (s.step a).inventory s.held (s.step a).held ∧ FitAll (s.step a).robots models := by
  cases a with
  | attach i link a =>
    exact hs.exchange_onRobot fun c names hc hfits => RobotChecker.hands_attach hc hfits link a
  | detach i link name =>
    exact hs.exchange_onRobot fun c names hc hfits => RobotChecker.hands_detach hc hfits link name
  | detachAll i link =>
    exact hs.exchange_onRobot fun c names hc hfits => RobotChecker.hands_detachAll hc hfits link
  | add i name shape pose => exact hs.exchange_onWorld fun w hw => WorldChecker.hands_add hw name shape ha
  | remove i name => exact hs.exchange_onWorld fun w hw => WorldChecker.hands_remove hw name
  | clear i => exact hs.exchange_onWorld fun w hw => WorldChecker.hands_clear hw
  | release body => cases hhand

/-- Every action keeps the invariant, whether it fails or not. -/
theorem Kept.step (hs : s.Kept models hand) (a : Action α) (ha : a.Checked) :
    (s.step a).Kept models (a.byHand ++ hand) := by
  have hexchange : a.byHand = [] → (s.step a).Kept models (a.byHand ++ hand) := by
    intro hhand
    obtain ⟨he, hfits⟩ := hs.exchange_step ha hhand
    rw [hhand]
    exact hs.exchange he hfits
  cases a with
  | release body => exact hs.release body
  | _ => exact hexchange rfl

section Making

variable {m : RobotModel α} {neighbours : Option (List (String × String))} {params : BodyParams α}
  {inv : Inventory α}

/-- A checker that is made holds bodies that were built for it. -/
theorem Kept.exchange_made (hs : s.Kept models hand) (hm : m.Keyed) {c : RobotChecker α}
    (hrun : (RobotChecker.make m neighbours params).run s.inventory = (.ok c, inv)) :
    Exchange s.inventory inv s.held { s with inventory := inv, robots := s.robots ++ [c] }.held ∧
      c.Fits m.linkNames := by
  have hmake := (RobotChecker.hands_make hm neighbours params s.inventory).beside hs.held
  rw [hrun] at hmake
  cases hmake with
  | ok he hfits =>
    refine ⟨he.perm (.refl _) ?_, hfits⟩
    simp only [Checkers.held, List.flatMap_append, List.flatMap_cons, List.flatMap_nil, List.append_nil,
      List.append_assoc]
    exact List.perm_append_comm_assoc ..

/-- A checker that cannot be made takes nothing from the others. -/
theorem Kept.exchange_refused (hs : s.Kept models hand) (hm : m.Keyed) {e : Error α}
    (hrun : (RobotChecker.make m neighbours params).run s.inventory = (.error e, inv)) :
    Exchange s.inventory inv s.held s.held := by
  have hmake := (RobotChecker.hands_make hm neighbours params s.inventory).beside hs.held
  rw [hrun] at hmake
  cases hmake with
  | error he => exact he

end Making

/-- Whatever happens, each body has one holder and is released only by hand. -/
theorem kept_of_comes {settings : Settings α} (h : Comes settings models hand s) : s.Kept models hand := by
  obtain ⟨log, h⟩ := h
  induction h with
  | start caches _ =>
    exact ⟨⟨List.nodup_nil, nofun⟩, nofun, ⟨rfl, nofun⟩, fun id b pose hb => by cases hb⟩
  | robot _ hm hrun ih =>
    obtain ⟨he, hfits⟩ := ih.exchange_made hm.keyed hrun
    exact ih.exchange he (ih.fits.concat hfits)
  | @refused models hand log s m neighbours params e inv _ _ hm hrun ih =>
    have he : Exchange s.inventory { s with inventory := inv }.inventory s.held s.held :=
      ih.exchange_refused hm.keyed hrun
    exact ih.exchange he ih.fits
  | @world models hand log s params _ _ ih =>
    have hsame : { s with worlds := s.worlds ++ [WorldChecker.empty params] }.held = s.held := by
      simp [Checkers.held, WorldChecker.held, WorldChecker.empty]
    have he : Exchange s.inventory s.inventory s.held
        { s with worlds := s.worlds ++ [WorldChecker.empty params] }.held := by
      rw [hsame]
      exact .refl ih.held.nodup
    exact ih.exchange he ih.fits
  | step a _ ha ih => exact ih.step a ha
  | @others models hand log s caches _ _ ih =>
    have he : Exchange s.inventory { s.inventory with caches := caches } s.held s.held :=
      (Exchange.refl ih.held.nodup).of_bodies rfl
    exact ih.exchange he ih.fits

end Clearance.Checkers
