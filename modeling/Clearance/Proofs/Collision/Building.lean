import Clearance.Collision.Inventory

/-!
# Building bodies

What a computation on an inventory does is told by its run: its outcome and the inventory it leaves.
The run of `Inventory.build` is taken apart here once, so that nothing else has to open it.

* `Inventory.run_bind` and the other runs of elementary steps.
* `Inventory.obtainField_kept`, `Inventory.obtainField_alone`: obtaining a field from a cache or
  without one.
* `Inventory.Building`, `Inventory.building`: the ways in which building a body can go;
  `Inventory.run_build` is the way in which it is entered.
* `Inventory.finish_eq_ok`: what a finished body consists of.
-/

namespace Clearance.Inventory

variable {α : Type}

/-! ## Elementary steps -/

/-- The second of two computations runs where the first one ends, unless that fails. -/
theorem run_bind {β γ : Type} (x : InventoryM α β) (f : β → InventoryM α γ) (inv : Inventory α) :
    (x >>= f).run inv = match x.run inv with
      | (.ok b, inv') => (f b).run inv'
      | (.error e, inv') => (.error e, inv') := by
  show (ExceptT.bindCont f (x.run inv).1) (x.run inv).2 = _
  obtain ⟨outcome, inv'⟩ := x.run inv
  cases outcome <;> rfl

theorem run_pure {β : Type} (b : β) (inv : Inventory α) :
    (pure b : InventoryM α β).run inv = (.ok b, inv) := rfl

theorem run_get (inv : Inventory α) : (get : InventoryM α (Inventory α)).run inv = (.ok inv, inv) :=
  rfl

theorem run_set (inv inv' : Inventory α) :
    (set inv' : InventoryM α PUnit).run inv = (.ok ⟨⟩, inv') := rfl

theorem run_liftM {β : Type} (x : Except (Error α) β) (inv : Inventory α) :
    (liftM x : InventoryM α β).run inv = (x, inv) := rfl

theorem run_attempt {β : Type} (x : Except Fault β) (inv : Inventory α) :
    (attempt x : InventoryM α β).run inv = (Fault.lift x, inv) := rfl

theorem run_reportAll (es : List (Event α)) (inv : Inventory α) :
    (reportAll es).run inv = (.ok (), { inv with events := inv.events ++ es.toArray }) := rfl

theorem run_report (e : Event α) (inv : Inventory α) :
    (report e).run inv = (.ok (), { inv with events := inv.events.push e }) := rfl

variable [Scalar α]

theorem run_release (id : Nat) (inv : Inventory α) :
    (release id).run inv = (.ok (), inv.releaseBody id) := rfl

/-! ## Obtaining a field -/

/-- A field from a cache: the cache and its events are what acquiring made of them. -/
theorem obtainField_kept (inv : Inventory α) (shapes : List (PlacedShape α)) {params : BodyParams α}
    {id : Nat} (h : params.cache = some id) :
    (obtainField shapes params).run inv =
      let acquired :=
        (inv.cache id).acquire inv.settings (sources shapes) (poseSources shapes) params.grid
      (acquired.outcome.map fun got => (got.1, some ⟨id, got.2⟩),
        { inv with
          caches := inv.caches.setIfInBounds id acquired.cache
          events := inv.events ++ acquired.events.toArray }) := by
  unfold obtainField
  rw [h]
  simp only [run_bind, run_get, run_set, run_reportAll, run_liftM]
  cases ((inv.cache id).acquire inv.settings (sources shapes) (poseSources shapes)
    params.grid).outcome <;> rfl

/-- A field for one body alone. -/
theorem obtainField_alone (inv : Inventory α) (shapes : List (PlacedShape α))
    {params : BodyParams α} (h : params.cache = none) :
    (obtainField shapes params).run inv =
      let built :=
        DistanceField.ofShapes inv.settings (sources shapes) (poseSources shapes) params.grid
      (built.1.map fun field =>
      (field, none), { inv with events := inv.events ++ built.2.toArray }) := by
  unfold obtainField
  rw [h]
  simp only [run_bind, run_get, run_reportAll, run_liftM]
  cases (DistanceField.ofShapes inv.settings (sources shapes) (poseSources shapes)
    params.grid).1 <;> rfl

theorem obtainField_kept_ok {inv inv' : Inventory α} {shapes : List (PlacedShape α)}
    {params : BodyParams α} {id : Nat} (h : params.cache = some id) {field : DistanceField α}
    {hold : Option (FieldHold α)}
    (ho : (obtainField shapes params).run inv = (.ok (field, hold), inv')) :
    ∃ key, ((inv.cache id).acquire inv.settings (sources shapes) (poseSources shapes)
      params.grid).outcome =
        .ok (field, key) ∧ hold = some ⟨id, key⟩ := by
  rw [obtainField_kept inv shapes h, Prod.mk.injEq] at ho
  obtain ⟨got, hgot, e⟩ := map_eq_ok.mp ho.1
  obtain ⟨rfl, rfl⟩ := Prod.mk.inj e
  exact ⟨got.2, hgot, rfl⟩

theorem obtainField_kept_error {inv inv' : Inventory α} {shapes : List (PlacedShape α)}
    {params : BodyParams α} {id : Nat} (h : params.cache = some id) {e : Error α}
    (ho : (obtainField shapes params).run inv = (.error e, inv')) :
    ((inv.cache id).acquire inv.settings (sources shapes) (poseSources shapes)
      params.grid).outcome = .error e := by
  rw [obtainField_kept inv shapes h, Prod.mk.injEq] at ho
  cases hout : ((inv.cache id).acquire inv.settings (sources shapes) (poseSources shapes)
      params.grid).outcome with
  | error e' => rw [hout] at ho; cases ho.1; rfl
  | ok got => rw [hout] at ho; cases ho.1

theorem obtainField_alone_ok {inv inv' : Inventory α} {shapes : List (PlacedShape α)}
    {params : BodyParams α} (h : params.cache = none) {field : DistanceField α}
    {hold : Option (FieldHold α)}
    (ho : (obtainField shapes params).run inv = (.ok (field, hold), inv')) :
    (DistanceField.ofShapes inv.settings (sources shapes) (poseSources shapes) params.grid).1 =
        .ok field ∧
      hold = none := by
  rw [obtainField_alone inv shapes h, Prod.mk.injEq] at ho
  obtain ⟨got, hgot, e⟩ := map_eq_ok.mp ho.1
  obtain ⟨rfl, rfl⟩ := Prod.mk.inj e
  exact ⟨hgot, rfl⟩

/-! ## Building -/

/-- How building a body can go: it is refused before its field is asked for, or the field cannot be
    had, or the body cannot be finished, or it is entered. -/
inductive Building (source : BodySource α) (params : BodyParams α) (inv : Inventory α) :
    Except (Error α) Nat × Inventory α → Prop where
  | refused (e : Error α) : Building source params inv (.error e, inv)
  | withoutField {shapes : List (PlacedShape α)} {e : Error α} {inv' : Inventory α} :
      (obtainField shapes params).run inv = (.error e, inv') →
      Building source params inv (.error e, inv')
  | unfinished {shapes : List (PlacedShape α)} {field : DistanceField α}
      {hold : Option (FieldHold α)}
      {inv' : Inventory α} {f : Fault} :
      placedShapes source = .ok shapes → Body.checkSpacing params.spacing = .ok () →
      (obtainField shapes params).run inv = (.ok (field, hold), inv') →
      finish source params shapes field hold = .error f →
      Building source params inv (.error (.fault f), inv')
  | entered {shapes : List (PlacedShape α)} {field : DistanceField α} {hold : Option (FieldHold α)}
      {inv' : Inventory α} {b : Body α} :
      placedShapes source = .ok shapes → Body.checkSpacing params.spacing = .ok () →
      (obtainField shapes params).run inv = (.ok (field, hold), inv') →
      finish source params shapes field hold = .ok b →
      Building source params inv (.ok inv'.bodies.size, { inv' with bodies := inv'.bodies.push b })

theorem building (source : BodySource α) (params : BodyParams α) (inv : Inventory α) :
    Building source params inv ((build source params).run inv) := by
  unfold build
  rw [run_bind, run_liftM]
  cases hs : placedShapes source with
  | error e => exact .refused e
  | ok shapes =>
    dsimp only
    rw [run_bind, run_liftM]
    cases hc : Body.checkSpacing params.spacing with
    | error e => exact .refused e
    | ok u =>
      dsimp only
      rw [run_bind]
      cases ho : (obtainField shapes params).run inv with
      | mk outcome inv' =>
        cases outcome with
        | error e => exact .withoutField ho
        | ok got =>
          dsimp only
          rw [run_bind, run_attempt]
          cases hf : finish source params shapes got.1 got.2 with
          | error f => exact .unfinished hs hc ho hf
          | ok b => exact .entered hs hc ho hf

/-- A body that can be finished with the field that is obtained for it is entered. -/
theorem run_build {source : BodySource α} {params : BodyParams α} {inv inv' : Inventory α}
    {shapes : List (PlacedShape α)} {field : DistanceField α} {hold : Option (FieldHold α)}
    {b : Body α} (hs : placedShapes source = .ok shapes)
    (hc : Body.checkSpacing params.spacing = .ok ())
    (ho : (obtainField shapes params).run inv = (.ok (field, hold), inv'))
    (hf : finish source params shapes field hold = .ok b) :
    (build source params).run inv =
    (.ok inv'.bodies.size, { inv' with bodies := inv'.bodies.push b }) := by
  unfold build
  rw [run_bind, run_liftM, hs]
  dsimp only
  rw [run_bind, run_liftM, hc]
  dsimp only
  rw [run_bind, ho]
  dsimp only
  rw [run_bind, run_attempt, hf]
  rfl

/-- What a finished body consists of. -/
theorem finish_eq_ok {source : BodySource α} {params : BodyParams α} {shapes : List (PlacedShape α)}
    {field : DistanceField α} {hold : Option (FieldHold α)} {b : Body α}
    (h : finish source params shapes field hold = .ok b) :
    ∃ spacing samples role, params.sampleSpacing field = .ok spacing ∧
      Body.samplesOf shapes spacing = .ok samples ∧
      Body.enclosing samples = .ok (b.center, b.radius) ∧
      source.role = .ok role ∧ b.content = some ⟨shapes, field, hold, samples⟩ := by
  unfold finish at h
  obtain ⟨spacing, hspacing, h⟩ := bind_eq_ok.mp h
  obtain ⟨samples, hsamples, h⟩ := bind_eq_ok.mp h
  obtain ⟨sphere, hsphere, h⟩ := bind_eq_ok.mp h
  obtain ⟨role, hrole, h⟩ := bind_eq_ok.mp h
  cases h
  exact ⟨spacing, samples, role, hspacing, hsamples, hsphere, hrole, rfl⟩

end Clearance.Inventory
