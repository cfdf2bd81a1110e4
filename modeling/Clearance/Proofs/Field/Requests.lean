import Clearance.Proofs.Field.Cache

/-!
# Requests to a cache

What callers do with a cache: they ask it for fields, give keys back, and clear it. What they are
handed is compared with the field that is built for their request without any cache.

* `FieldRequest`, `FieldRequest.field`: what is asked for, and the field that is built for it.
* `FieldRequest.key_eq_ok`, `FieldRequest.built_eq`: what the key of a request consists of, and what
  is built under it.
* `FieldCache.run`: the cache that a sequence of calls leaves behind.
* `FieldCache.handsOut_run`: after every such sequence, what is found under the key of a
  request is its field, as long as requests with the same key have the same field.
* `FieldCache.exists_ask_iff`: what such a cache hands out.
-/

namespace Clearance

/-- What a field is asked for with. -/
structure FieldRequest (α : Type) where
  settings : Settings α
  shapes : List (ShapeSource α)
  poses : Option (List (PoseSource α))
  params : GridParams α

namespace FieldRequest

variable {α : Type} [Scalar α]

/-- The field that is built for a request. -/
def field (r : FieldRequest α) : Except (Error α) (DistanceField α) :=
  (DistanceField.ofShapes r.settings r.shapes r.poses r.params).1

/-- The key of a request. -/
def key (r : FieldRequest α) : Except (Error α) (FieldKey α) :=
  FieldKey.make r.settings r.shapes r.poses r.params

/-- The sources of the poses: nothing for each shape unless poses are given. -/
def poseSources (r : FieldRequest α) : List (PoseSource α) :=
  r.poses.getD (List.replicate r.shapes.length .absent)

/-- The resolution that is part of the key: where none is given, it is the default. -/
def resolution (r : FieldRequest α) : Except (Error α) (Given α) :=
  match r.params.resolution with
  | none => r.settings.defaultResolution.map Given.real
  | some given => pure given

variable {r : FieldRequest α}

/-- The steps of making the key of a request. -/
theorem key_eq : r.key = do
    let given ← r.resolution
    let ps ← r.poseSources.mapM PoseSource.toPose
    let ts ← r.shapes.mapM ShapeSource.validate
    Fault.lift ([some given, r.params.padding, r.params.maxDims].forM FieldKey.checkParam)
    return ⟨ts.map Shape.digest, ps.map FieldKey.roundedPose, given, r.params.padding,
      r.params.maxDims⟩ := by
  unfold key FieldKey.make resolution
  cases r.params.resolution with
  | none => cases r.settings.defaultResolution <;> rfl
  | some given => rfl

/-- What the key of a request consists of. -/
theorem key_eq_ok {key : FieldKey α} : r.key = .ok key ↔
    ∃ given ps ts, r.resolution = .ok given ∧ r.poseSources.mapM PoseSource.toPose = .ok ps ∧
      r.shapes.mapM ShapeSource.validate = .ok ts ∧
      [some given, r.params.padding, r.params.maxDims].forM FieldKey.checkParam = .ok () ∧
      key = ⟨ts.map Shape.digest, ps.map FieldKey.roundedPose, given, r.params.padding,
        r.params.maxDims⟩ := by
  rw [key_eq]
  constructor
  · intro h
    obtain ⟨given, hgiven, h⟩ := bind_eq_ok.mp h
    obtain ⟨ps, hps, h⟩ := bind_eq_ok.mp h
    obtain ⟨ts, hts, h⟩ := bind_eq_ok.mp h
    obtain ⟨_, hparams, h⟩ := bind_eq_ok.mp h
    exact ⟨given, ps, ts, hgiven, hps, hts, Fault.lift_eq_ok.mp hparams, (Except.ok.inj h).symm⟩
  · rintro ⟨given, ps, ts, hgiven, hps, hts, hparams, rfl⟩
    refine bind_eq_ok.mpr ⟨given, hgiven, bind_eq_ok.mpr ⟨ps, hps, bind_eq_ok.mpr ⟨ts, hts, ?_⟩⟩⟩
    exact bind_eq_ok.mpr ⟨⟨⟩, Fault.lift_eq_ok.mpr hparams, rfl⟩

/-- The resolution in the key stands for the same scalar as what is asked for. -/
theorem checkedResolution_eq {given : Given α} (h : r.resolution = .ok given) :
    FieldPlan.checkedResolution r.settings (some given) =
      FieldPlan.checkedResolution r.settings r.params.resolution := by
  unfold resolution at h
  cases hres : r.params.resolution with
  | some given' =>
    rw [hres] at h
    obtain rfl := Except.ok.inj h
    rfl
  | none =>
    rw [hres] at h
    obtain ⟨x, hx, rfl⟩ := map_eq_ok.mp h
    unfold FieldPlan.checkedResolution
    simp only [hx]
    rfl

/-- Under its key, the field of a request is built. -/
theorem built_eq {key : FieldKey α} (h : r.key = .ok key) :
    FieldCache.built r.settings r.shapes r.poses r.params key = r.field := by
  obtain ⟨given, ps, ts, hgiven, -, -, -, rfl⟩ := key_eq_ok.mp h
  have hplan :
      FieldPlan.make r.settings r.shapes r.poses { r.params with resolution := some given } =
      FieldPlan.make r.settings r.shapes r.poses r.params := by
    unfold FieldPlan.make
    rw [checkedResolution_eq hgiven]
  unfold FieldCache.built field DistanceField.ofShapes
  rw [hplan]

end FieldRequest

namespace FieldCache

variable {α : Type} [Scalar α] {c : FieldCache α} {r : FieldRequest α}

/-- Asks a cache for the field of a request. -/
def ask (c : FieldCache α) (r : FieldRequest α) : Acquired α :=
  c.acquire r.settings r.shapes r.poses r.params

/-- What callers do with a cache. -/
inductive Call (α : Type) where
  | acquire (r : FieldRequest α)
  | release (key : FieldKey α)
  | clear

/-- The request of a call that asks for a field. -/
def Call.request? : Call α → Option (FieldRequest α)
  | .acquire r => some r
  | _ => none

/-- The cache after a call. -/
def step (c : FieldCache α) : Call α → FieldCache α
  | .acquire r => (c.ask r).cache
  | .release key => c.release key
  | .clear => c.clear

/-- The cache after calls. -/
def run (c : FieldCache α) (calls : List (Call α)) : FieldCache α := calls.foldl step c

/-- The requests of calls in their order. -/
def asked (calls : List (Call α)) : List (FieldRequest α) := calls.filterMap Call.request?

/-- What is found for a request is its field. -/
def HandsOut (c : FieldCache α) (r : FieldRequest α) : Prop :=
  c.HandsOutBuilt r.settings r.shapes r.poses r.params

/-- Two requests with the same key have the same field, if the first of them has one. -/
def SharesField (r' r : FieldRequest α) : Prop :=
  ∀ key key' field, r.key = .ok key → r'.key = .ok key' → key'.same key = true →
    r'.field = .ok field → r.field = .ok field

theorem clear_wellKept (c : FieldCache α) : c.clear.WellKept :=
  ⟨List.Pairwise.nil, fun _ h => by cases h⟩

variable [LawfulScalar α]

theorem ask_wellKept (hc : c.WellKept) (r : FieldRequest α) : (c.ask r).cache.WellKept := by
  cases h : (c.ask r).outcome with
  | error e => exact (acquire_error h).wellKept hc
  | ok got => exact (acquire_ok hc h).1

theorem step_wellKept (hc : c.WellKept) (call : Call α) : (c.step call).WellKept := by
  cases call with
  | acquire r => exact ask_wellKept hc r
  | release key => exact release_wellKept hc key
  | clear => exact clear_wellKept c

/-- A call keeps what is handed out, if what it asks for shares its field. -/
theorem handsOut_step (hc : c.WellKept) (h : c.HandsOut r) {call : Call α}
    (hcall : ∀ r' ∈ call.request?, SharesField r' r) : (c.step call).HandsOut r := by
  cases call with
  | acquire r' =>
    refine h.acquire hc fun key key' field hkey hkey' hsame hbuilt => ?_
    rw [FieldRequest.built_eq hkey'] at hbuilt
    rw [FieldRequest.built_eq hkey]
    exact hcall r' rfl key key' field hkey hkey' hsame hbuilt
  | release key => exact h.release hc key
  | clear => exact handsOutBuilt_empty

/-- Calls keep what is handed out, if all that they ask for share their field. -/
theorem handsOut_run (hc : c.WellKept) (h : c.HandsOut r) {calls : List (Call α)}
    (hcalls : ∀ r' ∈ asked calls, SharesField r' r) : (c.run calls).HandsOut r := by
  induction calls generalizing c with
  | nil => exact h
  | cons call calls ih =>
    refine ih (step_wellKept hc call) (handsOut_step hc h ?_) ?_
    · intro r' hr'
      exact hcalls r' (List.mem_filterMap.mpr ⟨call, List.mem_cons_self, hr'⟩)
    · intro r' hr'
      obtain ⟨call', hmem, hcall'⟩ := List.mem_filterMap.mp hr'
      exact hcalls r' (List.mem_filterMap.mpr ⟨call', List.mem_cons_of_mem _ hmem, hcall'⟩)

omit [LawfulScalar α] in
/-- A cache hands out a copy of the field of a request, and nothing else. -/
theorem exists_ask_iff (h : c.HandsOut r) {f : DistanceField α} :
    (∃ key, (c.ask r).outcome = .ok (f, key)) ↔
      ∃ key field, r.key = .ok key ∧ r.field = .ok field ∧ f = field.copy := by
  constructor
  · rintro ⟨key, hok⟩
    have hway := acquiring c r.settings r.shapes r.poses r.params
    unfold ask at hok
    generalize c.acquire r.settings r.shapes r.poses r.params = acquired at hok hway
    cases hway with
    | refused => cases hok
    | @kept key' e _ _ hkey hfind _ =>
      obtain ⟨rfl, rfl⟩ := Prod.mk.inj (Except.ok.inj hok)
      have hbuilt := h key' e hkey hfind
      rw [FieldRequest.built_eq hkey] at hbuilt
      exact ⟨key', e.field, hkey, hbuilt, rfl⟩
    | @entered key' field _ _ hkey _ hbuilt _ =>
      obtain ⟨rfl, rfl⟩ := Prod.mk.inj (Except.ok.inj hok)
      rw [FieldRequest.built_eq hkey] at hbuilt
      exact ⟨key', field, hkey, hbuilt, rfl⟩
  · rintro ⟨key, field, hkey, hfield, rfl⟩
    have hbuilt := (FieldRequest.built_eq hkey).trans hfield
    refine ⟨key, ?_⟩
    cases hfind : c.find? key with
    | none => exact acquire_missing hkey hfind hbuilt
    | some e =>
      have he : field = e.field := Except.ok.inj (hbuilt.symm.trans (h key e hkey hfind))
      rw [he]
      exact acquire_kept hkey hfind

end FieldCache

end Clearance
