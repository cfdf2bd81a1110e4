import Clearance.Proofs.Collision.Operations

/-!
# Histories of checkers that share a cache

Robot checkers and worlds share one cache, checkers could not be made, actions failed at any point,
and others use the cache for themselves. Whatever happens, there is the one cache, and no checker comes
to use another.

* `Inventory.Stays`: computations that lay out no cache.
* `Checkers.Shared`: the invariant, with its step `Checkers.Shared.step` and its run
  `Checkers.shared_of_arises`.
-/

namespace Clearance

variable {α : Type} [Scalar α]

/-! ## The caches of an inventory -/

namespace Inventory

variable {inv inv' : Inventory α}

theorem size_caches_releaseBody (inv : Inventory α) (id : Nat) :
    (inv.releaseBody id).caches.size = inv.caches.size := by
  unfold releaseBody
  cases inv.body? id with
  | none => rfl
  | some b =>
    dsimp only
    cases b.hold? with
    | none => rfl
    | some hold => exact Array.size_setIfInBounds

theorem size_caches_releaseAll (ids : List Nat) (inv : Inventory α) :
    (ids.foldl releaseBody inv).caches.size = inv.caches.size := by
  induction ids generalizing inv with
  | nil => rfl
  | cons id rest ih => exact (ih _).trans (size_caches_releaseBody inv id)

theorem size_caches_obtainField {shapes : List (PlacedShape α)} {params : BodyParams α}
    {outcome : Except (Error α) (DistanceField α × Option (FieldHold α))}
    (h : (obtainField shapes params).run inv = (outcome, inv')) :
    inv'.caches.size = inv.caches.size := by
  cases hc : params.cache with
  | none =>
    rw [obtainField_alone inv shapes hc, Prod.mk.injEq] at h
    rw [← h.2]
  | some place => exact (cache_obtainField hc h).2.1

/-- Building a body lays out no cache. -/
theorem size_caches_build {source : BodySource α} {params : BodyParams α}
    {outcome : Except (Error α) Nat} (h : (build source params).run inv = (outcome, inv')) :
    inv'.caches.size = inv.caches.size := by
  have hb := building source params inv
  rw [h] at hb
  cases hb with
  | refused => rfl
  | withoutField ho | unfinished _ _ ho _ => exact size_caches_obtainField ho
  | entered _ _ ho _ => exact (size_caches_obtainField ho :)

/-- A run lays out no cache, and what it gives satisfies `post`. -/
inductive Stays {β : Type} (inv : Inventory α) (post : β → Prop) :
    Except (Error α) β × Inventory α → Prop where
  | ok {b : β} {inv' : Inventory α} :
      inv'.caches.size = inv.caches.size → post b → Stays inv post (.ok b, inv')
  | error {e : Error α} {inv' : Inventory α} :
      inv'.caches.size = inv.caches.size → Stays inv post (.error e, inv')

omit [Scalar α] in
theorem Stays.proceed {β γ : Type} {post : β → Prop} {post' : γ → Prop}
    {r : Except (Error α) β × Inventory α} (h : Stays inv post r) {result : β → γ}
    {next : β → Inventory α → Inventory α}
    (hnext : ∀ b inv', (next b inv').caches.size = inv'.caches.size)
    (hresult : ∀ b, post b → post' (result b)) : Stays inv post' (proceed r result next) := by
  cases h with
  | ok hsize hb => exact .ok ((hnext _ _).trans hsize) (hresult _ hb)
  | error hsize => exact .error hsize

omit [Scalar α] in
/-- A run after one that laid out no cache. -/
theorem Stays.trans {β : Type} {post : β → Prop} {r : Except (Error α) β × Inventory α}
    {inv₁ : Inventory α} (h : Stays inv₁ post r) (hsize : inv₁.caches.size = inv.caches.size) :
    Stays inv post r := by
  cases h with
  | ok h hb => exact .ok (h.trans hsize) hb
  | error h => exact .error (h.trans hsize)

theorem stays_build (source : BodySource α) (params : BodyParams α) (inv : Inventory α) :
    Stays inv (fun _ => True) ((build source params).run inv) := by
  cases hb : (build source params).run inv with
  | mk outcome inv' =>
    cases outcome with
    | ok id => exact .ok (size_caches_build hb) trivial
    | error e => exact .error (size_caches_build hb)

end Inventory

open Inventory (Stays)

/-! ## Links -/

namespace LinkGeometry

theorem stays_make (link : String) (shapes : List (ShapeSource α))
    (poses : Option (List (PoseSource α))) (params : BodyParams α) (inv : Inventory α) :
    Stays inv (fun g => g.params = params) ((make link shapes poses params).run inv) := by
  rw [run_make]
  split
  · exact .ok rfl rfl
  · exact (Inventory.stays_build _ _ inv).proceed (fun _ _ => rfl) fun _ _ => rfl

theorem stays_attach (g : LinkGeometry α) (a : Attachment α) (inv : Inventory α) :
    Stays inv (fun r => r.1.params = g.params) ((g.attach a).run inv) := by
  rw [run_attach]
  refine (Inventory.stays_build _ _ inv).proceed (fun _ inv' => ?_) fun _ _ => rfl
  show (g.replacing a inv').caches.size = _
  unfold replacing
  split
  · exact Inventory.size_caches_releaseBody inv' _
  · rfl

theorem stays_detach (g : LinkGeometry α) (name : String) (inv : Inventory α) :
    Stays inv (fun g' => g'.params = g.params) ((g.detach name).run inv) := by
  rw [run_detach]
  split
  · exact .ok (Inventory.size_caches_releaseBody inv _) rfl
  · exact .error rfl

end LinkGeometry

/-! ## Robots -/

namespace RobotChecker

/-- The fields of all bodies are kept in one cache. -/
def Uses (c : RobotChecker α) (id : Nat) : Prop :=
  ∀ g ∈ c.geometries.values, g.params.cache = some id

variable {c : RobotChecker α} {id : Nat}

omit [Scalar α] in
theorem Uses.setGeometry (hc : c.Uses id) {g : LinkGeometry α} (hg : g.params.cache = some id) :
    (c.setGeometry g).Uses id := by
  intro g' hg'
  rcases Table.mem_values_set hg' with rfl | hg'
  · exact hg
  · exact hc g' hg'

theorem stays_makeGeometries {params : BodyParams α} (hp : params.cache = some id)
    (ls : List (Link α)) (inv : Inventory α) :
    Stays inv (fun gs => ∀ g ∈ gs, g.params.cache = some id)
      ((makeGeometries params ls).run inv) := by
  induction ls generalizing inv with
  | nil => exact .ok rfl fun g hg => absurd hg List.not_mem_nil
  | cons l rest ih =>
    have hl : Stays inv (fun g => g.params = params) ((makeGeometry params l).run inv) :=
      LinkGeometry.stays_make _ _ _ params inv
    rw [run_makeGeometries_cons]
    generalize (makeGeometry params l).run inv = r at hl ⊢
    cases hl with
    | error hsize => exact .error hsize
    | @ok g inv₁ hsize hg =>
      refine ((ih inv₁).proceed (fun _ _ => rfl) fun gs hgs => ?_).trans hsize
      intro g' hg'
      rcases List.mem_cons.mp hg' with rfl | hg'
      · rw [hg, hp]
      · exact hgs g' hg'

theorem stays_make {params : BodyParams α} (hp : params.cache = some id) (m : RobotModel α)
    (neighbours : Option (List (String × String))) (inv : Inventory α) :
    Stays inv (fun c => c.Uses id) ((make m neighbours params).run inv) := by
  rw [run_make]
  split
  · refine (stays_makeGeometries hp m.links.values inv).proceed (fun _ _ => rfl) fun gs hgs g hg => ?_
    exact hgs g (mem_of_mem_ofList hg)
  · exact .error rfl

theorem stays_attach (hc : c.Uses id) (link : String) (a : Attachment α) (inv : Inventory α) :
    Stays inv (fun r => r.1.Uses id) ((c.attach link a).run inv) := by
  rw [run_attach]
  split
  · rename_i g hg
    refine (g.stays_attach a inv).proceed (fun _ _ => rfl) fun r hr => hc.setGeometry ?_
    rw [hr]
    exact hc g (mem_of_geometry hg)
  · exact .error rfl

theorem stays_detach (hc : c.Uses id) (link name : String) (inv : Inventory α) :
    Stays inv (fun c' => c'.Uses id) ((c.detach link name).run inv) := by
  rw [run_detach]
  split
  · rename_i g hg
    refine (g.stays_detach name inv).proceed (fun _ _ => rfl) fun g' hg' => hc.setGeometry ?_
    rw [hg']
    exact hc g (mem_of_geometry hg)
  · exact .error rfl

theorem stays_detachAll (hc : c.Uses id) (link : Option String) (inv : Inventory α) :
    Stays inv (fun c' => c'.Uses id) ((c.detachAll link).run inv) := by
  cases link with
  | some link =>
    rw [run_detachAll_link]
    split
    · rename_i g hg
      exact .ok (Inventory.size_caches_releaseAll _ inv)
        (hc.setGeometry (hc g (mem_of_geometry hg)))
    · exact .error rfl
  | none =>
    rw [run_detachAll_all]
    have fold : ∀ (gs : List (LinkGeometry α)) (r : RobotChecker α × Inventory α),
        (∀ g ∈ gs, g.params.cache = some id) → r.1.Uses id →
        (gs.foldl detached r).2.caches.size = r.2.caches.size ∧ (gs.foldl detached r).1.Uses id := by
      intro gs
      induction gs with
      | nil => exact fun r _ hr => ⟨rfl, hr⟩
      | cons g rest ih =>
        intro r hgs hr
        obtain ⟨hsize, huses⟩ := ih (detached r g) (fun g hg => hgs g (List.mem_cons_of_mem _ hg))
          (hr.setGeometry (hgs g List.mem_cons_self))
        exact ⟨hsize.trans (Inventory.size_caches_releaseAll _ r.2), huses⟩
    obtain ⟨hsize, huses⟩ := fold c.geometries.values (c, inv) hc hc
    exact .ok hsize huses

end RobotChecker

/-! ## Worlds -/

namespace WorldChecker

theorem stays_add (w : WorldChecker α) (name : String) (shape : ShapeSource α)
    (pose : PoseSource α) (inv : Inventory α) :
    Stays inv (fun r => r.1.params = w.params) ((w.add name shape pose).run inv) := by
  rw [run_add_eq]
  split
  · refine (Inventory.stays_build _ _ inv).proceed (fun _ inv' => ?_) fun _ _ => rfl
    unfold replacing
    split
    · exact Inventory.size_caches_releaseBody inv' _
    · rfl
  · exact .error rfl

theorem stays_remove (w : WorldChecker α) (name : String) (inv : Inventory α) :
    Stays inv (fun w' => w'.params = w.params) ((w.remove name).run inv) := by
  rw [run_remove]
  split
  · exact .ok (Inventory.size_caches_releaseBody inv _) rfl
  · exact .error rfl

theorem stays_clear (w : WorldChecker α) (inv : Inventory α) :
    Stays inv (fun w' => w'.params = w.params) (w.clear.run inv) := by
  rw [run_clear]
  exact .ok (Inventory.size_caches_releaseAll _ inv) rfl

end WorldChecker

/-! ## Checkers -/

namespace Checkers

omit [Scalar α] in
theorem leaves_of_stays {β : Type} {inv : Inventory α} (hsize : inv.caches.size = 1) {post : β → Prop}
    {r : Except (Error α) β × Inventory α} (h : Stays inv post r) :
    Leaves (fun inv => inv.caches.size = 1) post r := by
  cases h with
  | ok h hb => exact ⟨h.trans hsize, fun _ hb' => Except.ok.inj hb' ▸ hb⟩
  | error h => exact ⟨h.trans hsize, nofun⟩

/-- There is one cache, and all checkers use it. -/
abbrev Shared (s : Checkers α) : Prop :=
  s.Every (fun inv => inv.caches.size = 1) (fun c => c.Uses 0) fun w => w.params.cache = some 0

/-- Every action leaves the checkers with the one cache, whether it fails or not. -/
theorem Shared.step {s : Checkers α} (hs : s.Shared) (a : Action α) : (s.step a).Shared := by
  have onRobot : ∀ {β : Type} {i : Nat} {x : RobotChecker α → InventoryM α β} {result : β → RobotChecker α},
      (∀ c, c.Uses 0 → Stays s.inventory (fun b => (result b).Uses 0) ((x c).run s.inventory)) →
      (s.onRobot i x result).Shared :=
    fun hx => hs.onRobot fun c _ hc => leaves_of_stays hs.inventory (hx c hc)
  have onWorld : ∀ {β : Type} {i : Nat} {x : WorldChecker α → InventoryM α β} {result : β → WorldChecker α},
      (∀ w, Stays s.inventory (fun b => (result b).params = w.params) ((x w).run s.inventory)) →
      (s.onWorld i x result).Shared := by
    intro β i x result hx
    refine hs.onWorld fun w _ hw => ?_
    obtain ⟨hsize, hresult⟩ := leaves_of_stays hs.inventory (hx w)
    exact ⟨hsize, fun b hb => (congrArg BodyParams.cache (hresult b hb)).trans hw⟩
  cases a with
  | attach i link a => exact onRobot fun c hc => RobotChecker.stays_attach hc link a _
  | detach i link name => exact onRobot fun c hc => RobotChecker.stays_detach hc link name _
  | detachAll i link => exact onRobot fun c hc => RobotChecker.stays_detachAll hc link _
  | add i name shape pose => exact onWorld fun w => w.stays_add name shape pose _
  | remove i name => exact onWorld fun w => w.stays_remove name _
  | clear i => exact onWorld fun w => w.stays_clear _
  | release body =>
    exact ⟨(Inventory.size_caches_releaseBody _ body).trans hs.inventory, hs.robots, hs.worlds⟩

/-- Whatever happens, all checkers use the one cache. -/
theorem shared_of_arises {settings : Settings α} {s : Checkers α} (h : Arises settings s) :
    s.Shared := by
  obtain ⟨models, hand, log, h⟩ := h
  refine every_of_history ?_ ?_ ?_ (fun _ hp => hp) (fun _ a hs _ => Shared.step hs a)
    (fun _ _ hcaches _ => hcaches) h
  · rintro _ rfl
    exact Array.size_replicate
  · intro m neighbours params inv c inv' hp hsize hrun
    have hmake := RobotChecker.stays_make hp m neighbours inv
    rw [hrun] at hmake
    cases hmake with
    | ok hsame hc => exact ⟨hsame.trans hsize, hc⟩
  · intro m neighbours params inv e inv' _ hp hsize hrun
    have hmake := RobotChecker.stays_make hp m neighbours inv
    rw [hrun] at hmake
    cases hmake with
    | error hsame => exact hsame.trans hsize

end Checkers

end Clearance
