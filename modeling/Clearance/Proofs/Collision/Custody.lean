import Clearance.Proofs.Collision.Operations
import Clearance.Proofs.Robot.StateRuns

/-!
# Who holds which body

The bodies of an inventory are held by links and worlds, each body by one of them. An operation on
one of them exchanges bodies: it gives some up and takes bodies that were built for it. Bodies that
others hold, and bodies that it keeps, stay as they are.

* `Inventory.Exchange`: the inventory before and after, with the places of the bodies held.
* `Inventory.Exchange.within`: an exchange among more bodies; `Inventory.Exchange.trans`: one after
  another.
* `Inventory.Hands`: a computation that exchanges bodies, and none if it fails.
* `LinkGeometry.hands_attach` and the like: links; `RobotChecker.hands_attach` and the like: robots;
  `WorldChecker.hands_add` and the like: worlds.
-/

namespace Clearance

variable {α : Type}

namespace Inventory

/-! ## Exchanges -/

/-- The poses of obstacles can be copied. -/
def Posed (inv : Inventory α) [Scalar α] : Prop :=
  ∀ id b pose, inv.body? id = some b → b.role = .obstacle pose → pose.copy = .ok pose

/-- Different bodies that are there. -/
structure Held (inv : Inventory α) (ids : List Nat) : Prop where
  nodup : ids.Nodup
  present : ∀ id ∈ ids, id < inv.bodies.size

variable [Scalar α] {inv inv₁ inv₂ : Inventory α} {old new mid : List Nat}

/-- Of the bodies at the places `old`, those not at the places `new` are given up, and so released. A
    body at one of the latter is as it was, or it was built meanwhile; all other bodies are as they
    were. -/
structure Exchange (inv inv₁ : Inventory α) (old new : List Nat) : Prop where
  size_le : inv.bodies.size ≤ inv₁.bodies.size
  others : ∀ id < inv.bodies.size, id ∉ old → inv₁.body? id = inv.body? id
  nodup : new.Nodup
  origin : ∀ id ∈ new, (id ∈ old ∧ inv₁.body? id = inv.body? id) ∨
    (inv.bodies.size ≤ id ∧ ∃ b, inv₁.body? id = some b ∧ b.isReleased = false)
  given : ∀ id ∈ old, id ∉ new → id < inv.bodies.size → ∀ b, inv₁.body? id = some b → b.isReleased = true
  posed : inv.Posed → inv₁.Posed

omit [Scalar α] in
theorem lt_of_body? {id : Nat} {b : Body α} (h : inv.body? id = some b) : id < inv.bodies.size :=
  (Array.getElem?_eq_some_iff.mp h).1

theorem Exchange.refl (h : old.Nodup) : Exchange inv inv old old :=
  ⟨le_rfl, fun _ _ _ => rfl, h, fun _ hid => .inl ⟨hid, rfl⟩, fun _ hid hnew => absurd hid hnew, id⟩

/-- Caches and events do not matter. -/
theorem Exchange.of_bodies (h : Exchange inv inv₁ old new) (hb : inv₂.bodies = inv₁.bodies) :
    Exchange inv inv₂ old new := by
  have hbody : inv₂.body? = inv₁.body? := by
    funext id
    rw [body?, body?, hb]
  refine ⟨hb ▸ h.size_le, hbody ▸ h.others, h.nodup, hbody ▸ h.origin, hbody ▸ h.given, fun hp => ?_⟩
  unfold Posed
  rw [hbody]
  exact h.posed hp

theorem Exchange.perm (h : Exchange inv inv₁ old new) {old' new' : List Nat} (ho : old.Perm old')
    (hn : new.Perm new') : Exchange inv inv₁ old' new' :=
  ⟨h.size_le, fun id hid hmem => h.others id hid fun h' => hmem (ho.mem_iff.mp h'), hn.nodup_iff.mp h.nodup,
    fun id hid => (h.origin id (hn.mem_iff.mpr hid)).imp_left fun h => ⟨ho.mem_iff.mp h.1, h.2⟩,
    fun id hid hnew => h.given id (ho.mem_iff.mpr hid) fun h' => hnew (hn.mem_iff.mp h'), h.posed⟩

/-- Newly built bodies that nobody takes are left to themselves. -/
theorem Exchange.sublist (h : Exchange inv inv₁ [] new) {new' : List Nat} (hn : new'.Sublist new) :
    Exchange inv inv₁ [] new' :=
  ⟨h.size_le, h.others, h.nodup.sublist hn, fun id hid => h.origin id (hn.subset hid),
    fun _ hid => absurd hid List.not_mem_nil, h.posed⟩

theorem Exchange.trans (h : Exchange inv inv₁ old mid) (h' : Exchange inv₁ inv₂ mid new) :
    Exchange inv inv₂ old new where
  size_le := h.size_le.trans h'.size_le
  others id hid hold := by
    have hmid : id ∉ mid := by
      intro hmem
      rcases h.origin id hmem with ⟨hmem, -⟩ | ⟨hge, -⟩
      · exact hold hmem
      · omega
    rw [h'.others id (hid.trans_le h.size_le) hmid, h.others id hid hold]
  nodup := h'.nodup
  origin id hid := by
    rcases h'.origin id hid with ⟨hmem, heq⟩ | ⟨hge, hb⟩
    · rw [heq]
      exact h.origin id hmem
    · exact .inr ⟨h.size_le.trans hge, hb⟩
  given id hold hnew hlt b hb := by
    by_cases hmid : id ∈ mid
    · exact h'.given id hmid hnew (hlt.trans_le h.size_le) b hb
    · rw [h'.others id (hlt.trans_le h.size_le) hmid] at hb
      exact h.given id hold hmid hlt b hb
  posed hp := h'.posed (h.posed hp)

theorem Held.exchange (hold : inv.Held old) (h : Exchange inv inv₁ old new) : inv₁.Held new := by
  refine ⟨h.nodup, fun id hid => ?_⟩
  rcases h.origin id hid with ⟨hmem, -⟩ | ⟨-, b, hb, -⟩
  · exact (hold.present id hmem).trans_le h.size_le
  · exact lt_of_body? hb

/-- An exchange leaves alone what else is held. -/
theorem Exchange.within (h : Exchange inv inv₁ old new) {all all' rest : List Nat} (hall : inv.Held all)
    (hold : all.Perm (old ++ rest)) (hnew : all'.Perm (new ++ rest)) : Exchange inv inv₁ all all' := by
  refine Exchange.perm ?_ hold.symm hnew.symm
  obtain ⟨-, hrest, hdisjoint⟩ := List.nodup_append'.mp (hold.nodup_iff.mp hall.nodup)
  have hpresent : ∀ id ∈ rest, id < inv.bodies.size := fun id hid =>
    hall.present id (hold.mem_iff.mpr (List.mem_append_right _ hid))
  refine ⟨h.size_le, fun id hid hmem => h.others id hid fun ho => hmem (List.mem_append_left _ ho), ?_,
    fun id hid => ?_, fun id hid hmem => ?_, h.posed⟩
  · refine List.nodup_append'.mpr ⟨h.nodup, hrest, fun id hid hid' => ?_⟩
    rcases h.origin id hid with ⟨hmem, -⟩ | ⟨hge, -⟩
    · exact hdisjoint hmem hid'
    · have := hpresent id hid'
      omega
  · rcases List.mem_append.mp hid with hid | hid
    · exact (h.origin id hid).imp_left fun h => ⟨List.mem_append_left _ h.1, h.2⟩
    · exact .inl ⟨List.mem_append_right _ hid, h.others id (hpresent id hid) fun ho => hdisjoint ho hid⟩
  · rw [List.mem_append, not_or] at hmem
    exact h.given id ((List.mem_append.mp hid).resolve_right hmem.2) hmem.1

/-! ## Releasing -/

/-- A released body has lost what it owned, and all others are as before. -/
theorem body?_releaseBody (inv : Inventory α) (id id' : Nat) :
    (inv.releaseBody id).body? id' = if id = id' then (inv.body? id').map Body.released else inv.body? id' := by
  unfold releaseBody
  cases hb : inv.body? id with
  | none =>
    dsimp only
    split_ifs with heq
    · rw [← heq, hb]
      rfl
    · rfl
  | some b =>
    have hset : ∀ inv' : Inventory α, inv'.bodies = inv.bodies →
        ({ inv' with bodies := inv'.bodies.setIfInBounds id b.released } : Inventory α).body? id' =
          if id = id' then (inv.body? id').map Body.released else inv.body? id' := by
      intro inv' hbodies
      rw [body?, body?, Array.getElem?_setIfInBounds, hbodies, if_pos (lt_of_body? hb)]
      split_ifs with heq
      · rw [← heq, ← body?, hb]
        rfl
      · rfl
    dsimp only
    cases b.hold? with
    | none => exact hset inv rfl
    | some hold => exact hset (inv.dropHold hold) rfl

theorem size_releaseBody (inv : Inventory α) (id : Nat) :
    (inv.releaseBody id).bodies.size = inv.bodies.size := by
  unfold releaseBody
  cases inv.body? id with
  | none => rfl
  | some b =>
    dsimp only
    cases b.hold? with
    | none => exact Array.size_setIfInBounds
    | some hold => exact Array.size_setIfInBounds

theorem settings_releaseBody (inv : Inventory α) (id : Nat) : (inv.releaseBody id).settings = inv.settings := by
  unfold releaseBody
  cases inv.body? id with
  | none => rfl
  | some b =>
    dsimp only
    cases b.hold? <;> rfl

theorem Posed.releaseBody (h : inv.Posed) (id : Nat) : (inv.releaseBody id).Posed := by
  intro id' b pose hb hrole
  rw [body?_releaseBody] at hb
  split at hb
  · obtain ⟨b', hb', rfl⟩ := Option.map_eq_some_iff.mp hb
    exact h id' b' pose hb' hrole
  · exact h id' b pose hb hrole

/-- A body that is released is given up. -/
theorem exchange_releaseBody (inv : Inventory α) (id : Nat) : Exchange inv (inv.releaseBody id) [id] [] where
  size_le := (size_releaseBody inv id).ge
  others id' _ hne := by
    rw [body?_releaseBody, if_neg fun heq => hne (List.mem_singleton.mpr heq.symm)]
  nodup := List.nodup_nil
  origin _ h := absurd h List.not_mem_nil
  given id' hid _ _ b hb := by
    rw [body?_releaseBody, if_pos (List.mem_singleton.mp hid).symm] at hb
    obtain ⟨_, -, rfl⟩ := Option.map_eq_some_iff.mp hb
    rfl
  posed h := h.releaseBody id

/-- One of the bodies held is released and given up. -/
theorem exchange_release {all rest : List Nat} {id : Nat} (hall : inv.Held all) (h : all.Perm (id :: rest)) :
    Exchange inv (inv.releaseBody id) all rest :=
  (exchange_releaseBody inv id).within hall h (.refl rest)

theorem exchange_releaseAll {ids : List Nat} (h : inv.Held ids) :
    Exchange inv (ids.foldl releaseBody inv) ids [] := by
  induction ids generalizing inv with
  | nil => exact .refl List.nodup_nil
  | cons id rest ih =>
    have hfirst : Exchange inv (inv.releaseBody id) (id :: rest) rest := exchange_release h (.refl _)
    exact hfirst.trans (ih (h.exchange hfirst))

/-! ## Computations -/

/-- A computation exchanges the bodies at the places `old` for those of what it gives, which
    satisfies `post`. If it fails, it exchanges none. -/
inductive Hands {β : Type} (inv : Inventory α) (old : List Nat) (held : β → List Nat) (post : β → Prop) :
    Except (Error α) β × Inventory α → Prop where
  | ok {b : β} {inv₁ : Inventory α} :
      Exchange inv inv₁ old (held b) → post b → Hands inv old held post (.ok b, inv₁)
  | error {e : Error α} {inv₁ : Inventory α} :
      Exchange inv inv₁ old old → Hands inv old held post (.error e, inv₁)

theorem Hands.proceed {β γ : Type} {r : Except (Error α) β × Inventory α} {held : β → List Nat} {post : β → Prop}
    (h : Hands inv old held post r) {result : β → γ} {next : β → Inventory α → Inventory α}
    {held' : γ → List Nat} {post' : γ → Prop}
    (hnext : ∀ b inv₁, Exchange inv inv₁ old (held b) → post b →
      Exchange inv (next b inv₁) old (held' (result b)))
    (hresult : ∀ b, post b → post' (result b)) : Hands inv old held' post' (proceed r result next) := by
  cases h with
  | ok hb hpost => exact .ok (hnext _ _ hb hpost) (hresult _ hpost)
  | error he => exact .error he

/-- A computation that takes new bodies leaves alone what is held. -/
theorem Hands.beside {β : Type} {r : Except (Error α) β × Inventory α} {held : β → List Nat} {post : β → Prop}
    (h : Hands inv [] held post r) {all : List Nat} (hall : inv.Held all) :
    Hands inv all (fun b => held b ++ all) post r := by
  cases h with
  | ok hb hpost => exact .ok (hb.within hall (.refl all) (.refl _)) hpost
  | error he => exact .error (he.within hall (.refl all) (.refl all))

theorem bodies_obtainField {shapes : List (PlacedShape α)} {params : BodyParams α}
    {outcome : Except (Error α) (DistanceField α × Option (FieldHold α))}
    (h : (obtainField shapes params).run inv = (outcome, inv₁)) : inv₁.bodies = inv.bodies := by
  cases hc : params.cache with
  | none =>
    rw [obtainField_alone inv shapes hc, Prod.mk.injEq] at h
    rw [← h.2]
  | some place => exact (cache_obtainField hc h).1

/-- A finished body has the role that was asked for. -/
theorem role_finish {source : BodySource α} {params : BodyParams α} {shapes : List (PlacedShape α)}
    {field : DistanceField α} {hold : Option (FieldHold α)} {b : Body α}
    (h : finish source params shapes field hold = .ok b) : source.role = .ok b.role := by
  obtain ⟨_, -, h⟩ := bind_eq_ok.mp h
  obtain ⟨_, -, h⟩ := bind_eq_ok.mp h
  obtain ⟨_, -, h⟩ := bind_eq_ok.mp h
  obtain ⟨role, hrole, h⟩ := bind_eq_ok.mp h
  cases h
  exact hrole

/-- A body that is built is new, and the builder is its first holder. -/
theorem hands_build {source : BodySource α} (hrole : ∀ pose, source.role = .ok (.obstacle pose) →
    pose.copy = .ok pose) (params : BodyParams α) (inv : Inventory α) :
    Hands inv [] (fun id => [id]) (fun _ => True) ((build source params).run inv) := by
  have hb := building source params inv
  generalize (build source params).run inv = r at hb
  cases hb with
  | refused => exact .error (.refl List.nodup_nil)
  | withoutField ho | unfinished _ _ ho _ =>
    exact .error ((Exchange.refl List.nodup_nil).of_bodies (bodies_obtainField ho))
  | @entered shapes field hold inv' b _ _ ho hf =>
    have hbodies := bodies_obtainField ho
    obtain ⟨spacing, samples, role, -, -, -, -, hcontent⟩ := finish_eq_ok hf
    have hbody : ∀ id, ({ inv' with bodies := inv'.bodies.push b } : Inventory α).body? id =
        if id = inv.bodies.size then some b else inv.body? id := by
      intro id
      rw [body?, body?, Array.getElem?_push, hbodies]
    refine .ok ⟨?_, fun id hid _ => ?_, List.nodup_singleton _, fun id hid => .inr ?_,
      fun _ hid => absurd hid List.not_mem_nil, fun hp id b' pose hb' => ?_⟩ trivial
    · simp [hbodies]
    · rw [hbody, if_neg hid.ne]
    · obtain rfl := List.mem_singleton.mp hid
      refine ⟨hbodies ▸ le_rfl, b, ?_, ?_⟩
      · rw [hbody, if_pos (by rw [hbodies])]
      · rw [Body.isReleased, hcontent]
        rfl
    · rw [hbody] at hb'
      split at hb'
      · cases hb'
        exact fun hpose => hrole pose (hpose ▸ role_finish hf)
      · exact hp id b' pose hb'

end Inventory

open Inventory (Exchange Held Hands)

variable [Scalar α] {inv inv₁ : Inventory α}

/-! ## Links -/

namespace LinkGeometry

theorem hands_make (link : String) (shapes : List (ShapeSource α)) (poses : Option (List (PoseSource α)))
    (params : BodyParams α) (inv : Inventory α) :
    Hands inv [] bodies (fun g => g.link = link) ((make link shapes poses params).run inv) := by
  rw [run_make]
  split
  · exact .ok (.refl List.nodup_nil) rfl
  · exact (Inventory.hands_build (by rintro _ ⟨⟩) params inv).proceed (fun id inv₁ h _ => h) fun _ _ => rfl

/-- The attached body takes the place of the one that it replaces. -/
theorem hands_attach {g : LinkGeometry α} (hg : inv.Held g.bodies) (a : Attachment α) :
    Hands inv g.bodies (fun r => r.1.bodies) (fun r => r.1.link = g.link) ((g.attach a).run inv) := by
  have hrole : ∀ pose, (g.source a).role = .ok (.obstacle pose) → pose.copy = .ok pose := by
    intro pose h
    obtain ⟨touch, -, h⟩ := map_eq_ok.mp h
    cases h
  rw [run_attach]
  refine ((Inventory.hands_build hrole g.params inv).beside hg).proceed
    (fun id inv₁ h _ => ?_) fun _ _ => rfl
  have hreplaced : Exchange inv (g.replacing a inv₁) g.bodies
      { g with attached := g.attached.push a.name id }.bodies := by
    unfold replacing
    cases hfind : g.attached.find? a.name with
    | none =>
      refine h.perm (.refl _) ?_
      rw [bodies, bodies, Table.values_push, Table.erase_of_find? hfind, ← List.append_assoc g.body.toList]
      exact List.perm_append_comm
    | some previous =>
      obtain ⟨before, after, hvalues, -, herase⟩ := Table.exists_values_split hfind
      have hreleased : Exchange inv₁ (inv₁.releaseBody previous) ([id] ++ g.bodies)
          { g with attached := g.attached.push a.name id }.bodies := by
        refine Inventory.exchange_release (hg.exchange h) ?_
        rw [bodies, bodies, Table.values_push, herase, hvalues, List.perm_iff_count]
        intro x
        simp only [List.count_append, List.count_cons, List.count_nil]
        omega
      exact (h.trans hreleased).of_bodies rfl
  exact hreplaced.of_bodies rfl

theorem hands_detach {g : LinkGeometry α} (hg : inv.Held g.bodies) (name : String) :
    Hands inv g.bodies bodies (fun g' => g'.link = g.link) ((g.detach name).run inv) := by
  rw [run_detach]
  unfold attachedBody
  cases hfind : g.attached.find? name with
  | none => exact .error (.refl hg.nodup)
  | some id =>
    obtain ⟨before, after, hvalues, -, herase⟩ := Table.exists_values_split hfind
    have hreleased : Exchange inv (inv.releaseBody id) g.bodies
        { g with attached := g.attached.erase name }.bodies := by
      refine Inventory.exchange_release hg ?_
      rw [bodies, bodies, herase, hvalues, ← List.append_assoc, ← List.append_assoc]
      exact List.perm_middle
    exact .ok (hreleased.of_bodies rfl) rfl

/-- Of the bodies of a link its own is left. -/
theorem exchange_detachAll {g : LinkGeometry α} (hg : inv.Held g.bodies) :
    Exchange inv (g.attached.values.foldl Inventory.releaseBody inv) g.bodies
      { g with attached := Table.empty }.bodies := by
  have hattached : inv.Held g.attached.values :=
    ⟨(List.nodup_append.mp hg.nodup).2.1, fun id hid => hg.present id (List.mem_append_right _ hid)⟩
  refine (Inventory.exchange_releaseAll hattached).within hg List.perm_append_comm ?_
  rw [bodies]
  exact .of_eq (List.append_nil _)

end LinkGeometry

/-! ## Robots -/

namespace RobotChecker

/-- The places of all bodies of a checker. -/
def held (c : RobotChecker α) : List Nat := c.geometries.values.flatMap LinkGeometry.bodies

/-- A checker has the links of a model, each under its name. -/
structure Fits (c : RobotChecker α) (names : List String) : Prop where
  keys : c.geometries.keys = names
  link : ∀ name g, c.geometries.find? name = some g → g.link = name

variable {c : RobotChecker α} {g g' : LinkGeometry α} {names : List String}

omit [Scalar α] in
theorem find?_of_geometry {link : String} (h : c.geometry link = .ok g) : c.geometries.find? link = some g := by
  unfold geometry at h
  split at h
  · cases h
    assumption
  · cases h

omit [Scalar α] in
theorem Fits.find?_link (hc : c.Fits names) (hg : g ∈ c.geometries.values) :
    c.geometries.find? g.link = some g := by
  obtain ⟨e, he, rfl⟩ := List.mem_map.mp hg
  have hfind := Table.find?_of_mem (k := e.1) (v := e.2) he
  rw [hc.link e.1 e.2 hfind, hfind]

omit [Scalar α] in
theorem Fits.map_link_values (hc : c.Fits names) :
    c.geometries.values.map LinkGeometry.link = c.geometries.keys := by
  rw [Table.values, Table.keys, List.map_map]
  exact List.map_congr_left fun e he => hc.link e.1 e.2 (Table.find?_of_mem he)

omit [Scalar α] in
theorem Fits.setGeometry (hc : c.Fits names) (hg : c.geometries.find? g'.link = some g) :
    (c.setGeometry g').Fits names := by
  refine ⟨?_, fun name g'' h => ?_⟩
  · rw [RobotChecker.setGeometry, Table.keys_set, if_pos ?_, hc.keys]
    exact (Table.contains_iff _ _).mp (Option.isSome_of_eq_some hg)
  · rw [RobotChecker.setGeometry, Table.find?_set] at h
    split at h
    · cases h
      assumption
    · exact hc.link name g'' h

omit [Scalar α] in
/-- The bodies of a link among those of a checker, and those of another in its place. -/
theorem exists_held_split (hg : c.geometries.find? g'.link = some g) :
    ∃ rest, c.held.Perm (g.bodies ++ rest) ∧ (c.setGeometry g').held.Perm (g'.bodies ++ rest) := by
  obtain ⟨before, after, hvalues, hset, -⟩ := Table.exists_values_split hg
  refine ⟨before.flatMap LinkGeometry.bodies ++ after.flatMap LinkGeometry.bodies, ?_, ?_⟩
  · rw [held, hvalues, List.flatMap_append, List.flatMap_cons]
    exact List.perm_append_comm_assoc ..
  · rw [held, RobotChecker.setGeometry, hset, List.flatMap_append, List.flatMap_cons]
    exact List.perm_append_comm_assoc ..

omit [Scalar α] in
theorem held_of_find? {link : String} (hc : inv.Held c.held) (hg : c.geometries.find? link = some g) :
    inv.Held g.bodies := by
  have hmem := Table.mem_values_of_find? hg
  refine ⟨(List.nodup_flatMap.mp hc.nodup).1 g hmem, fun id hid => hc.present id ?_⟩
  exact List.mem_flatMap_of_mem hmem hid

/-- What is exchanged on a link is exchanged on the checker. -/
theorem exchange_setGeometry (hc : inv.Held c.held) (hg : c.geometries.find? g'.link = some g)
    (h : Exchange inv inv₁ g.bodies g'.bodies) : Exchange inv inv₁ c.held (c.setGeometry g').held := by
  obtain ⟨rest, hold, hnew⟩ := exists_held_split hg
  exact h.within hc hold hnew

theorem hands_makeGeometries (params : BodyParams α) (ls : List (Link α)) (inv : Inventory α) :
    Hands inv [] (fun gs => gs.flatMap LinkGeometry.bodies)
      (fun gs => gs.map LinkGeometry.link = ls.map Link.name) ((makeGeometries params ls).run inv) := by
  induction ls generalizing inv with
  | nil => exact .ok (.refl List.nodup_nil) rfl
  | cons l rest ih =>
    have hl : Hands inv [] LinkGeometry.bodies (fun g => g.link = l.name) ((makeGeometry params l).run inv) :=
      LinkGeometry.hands_make _ _ _ params inv
    rw [run_makeGeometries_cons]
    generalize (makeGeometry params l).run inv = r at hl ⊢
    cases hl with
    | error he => exact .error he
    | @ok g inv₁ hg hlink =>
      have hheld : inv₁.Held g.bodies := Held.exchange ⟨List.nodup_nil, nofun⟩ hg
      have hrest := (ih inv₁).beside hheld
      dsimp only
      generalize (makeGeometries params rest).run inv₁ = r at hrest ⊢
      cases hrest with
      | error he => exact .error ((hg.trans he).sublist (List.nil_sublist _))
      | ok hgs hlinks =>
        refine .ok ((hg.trans hgs).perm (.refl _) ?_) ?_
        · exact List.perm_append_comm
        · rw [List.map_cons, List.map_cons, hlink, hlinks]

omit [Scalar α] in
/-- Links under different names are found under these. -/
theorem fits_ofList {gs : List (LinkGeometry α)} (robot : Option String) (neighbours : List (String × String))
    (hnames : (gs.map LinkGeometry.link).Nodup) :
    let c : RobotChecker α := ⟨robot, neighbours, Table.ofList (gs.map fun g => (g.link, g))⟩
    c.Fits (gs.map LinkGeometry.link) ∧ c.held = gs.flatMap LinkGeometry.bodies := by
  intro c
  have hentries : c.geometries.entries = gs.map fun g => (g.link, g) :=
    Table.entries_ofList (by simpa [Function.comp_def] using hnames)
  refine ⟨⟨?_, fun name g h => ?_⟩, ?_⟩
  · simp [Table.keys, hentries, Function.comp_def]
  · obtain ⟨before, after, hsplit, -⟩ := Table.lookup_split c.geometries.nodup h
    have hmem : (name, g) ∈ c.geometries.entries := by simp [hsplit]
    rw [hentries, List.mem_map] at hmem
    obtain ⟨g', -, heq⟩ := hmem
    cases heq
    rfl
  · simp [held, Table.values, hentries, Function.comp_def]

/-- A checker of a model has its links, and their bodies are new. -/
theorem hands_make {m : RobotModel α} (hm : m.Keyed) (neighbours : Option (List (String × String)))
    (params : BodyParams α) (inv : Inventory α) :
    Hands inv [] held (fun c => c.Fits m.linkNames) ((make m neighbours params).run inv) := by
  rw [run_make]
  cases neighbourPairs m neighbours with
  | error e => exact .error (.refl List.nodup_nil)
  | ok pairs =>
    have hgs := hands_makeGeometries params m.links.values inv
    rw [hm.map_name_values] at hgs
    have hmade : ∀ gs : List (LinkGeometry α), gs.map LinkGeometry.link = m.linkNames →
        let c : RobotChecker α := ⟨m.name, pairs, Table.ofList (gs.map fun g => (g.link, g))⟩
        c.Fits m.linkNames ∧ c.held = gs.flatMap LinkGeometry.bodies := by
      intro gs hnames
      have hnodup : (gs.map LinkGeometry.link).Nodup := hnames ▸ m.links.nodup_keys
      exact hnames ▸ fits_ofList m.name pairs hnodup
    refine hgs.proceed (fun gs inv₁ h hnames => ?_) fun gs hnames => (hmade gs hnames).1
    rw [(hmade gs hnames).2]
    exact h.of_bodies rfl

/-- What is handed over on a link is handed over on the checker. -/
theorem hands_setGeometry {β : Type} {r : Except (Error α) β × Inventory α} (result : β → LinkGeometry α)
    {link : String} (hc : inv.Held c.held) (hfits : c.Fits names) (hg : c.geometry link = .ok g)
    (h : inv.Held g.bodies →
      Hands inv g.bodies (fun b => (result b).bodies) (fun b => (result b).link = g.link) r) :
    Hands inv c.held (fun b => (c.setGeometry (result b)).held)
      (fun b => (c.setGeometry (result b)).Fits names) r := by
  have hfind := find?_of_geometry hg
  have hself : c.geometries.find? g.link = some g := by rw [hfits.link link g hfind, hfind]
  replace h := h (held_of_find? hc hfind)
  cases h with
  | @ok b inv₁ h hlink =>
    have hfind' : c.geometries.find? (result b).link = some g := by rw [hlink, hself]
    exact .ok (exchange_setGeometry hc hfind' h) (hfits.setGeometry hfind')
  | error h =>
    obtain ⟨rest, hheld, -⟩ := exists_held_split hself
    exact .error (h.within hc hheld hheld)

theorem hands_attach (hc : inv.Held c.held) (hfits : c.Fits names) (link : String) (a : Attachment α) :
    Hands inv c.held (fun r => r.1.held) (fun r => r.1.Fits names) ((c.attach link a).run inv) := by
  rw [run_attach]
  cases hg : c.geometry link with
  | error e => exact .error (.refl hc.nodup)
  | ok g =>
    have hset := hands_setGeometry Prod.fst hc hfits hg fun h => LinkGeometry.hands_attach h a
    exact hset.proceed (fun r inv₁ h _ => h) fun r h => h

theorem hands_detach (hc : inv.Held c.held) (hfits : c.Fits names) (link name : String) :
    Hands inv c.held held (fun c' => c'.Fits names) ((c.detach link name).run inv) := by
  rw [run_detach]
  cases hg : c.geometry link with
  | error e => exact .error (.refl hc.nodup)
  | ok g =>
    have hset := hands_setGeometry id hc hfits hg fun h => LinkGeometry.hands_detach h name
    exact hset.proceed (fun r inv₁ h _ => h) fun r h => h

/-- Links from which all bodies are taken, one after the other. -/
theorem exchange_detached {gs : List (LinkGeometry α)} (hgs : (gs.map LinkGeometry.link).Nodup)
    (hfind : ∀ g ∈ gs, c.geometries.find? g.link = some g) (hc : inv.Held c.held) (hfits : c.Fits names) :
    let r := gs.foldl detached (c, inv)
    Exchange inv r.2 c.held r.1.held ∧ r.1.Fits names := by
  induction gs generalizing c inv with
  | nil => exact ⟨.refl hc.nodup, hfits⟩
  | cons g rest ih =>
    obtain ⟨hlink, hrest⟩ := List.nodup_cons.mp hgs
    have hg := hfind g List.mem_cons_self
    have hfirst : Exchange inv (detached (c, inv) g).2 c.held (detached (c, inv) g).1.held :=
      exchange_setGeometry hc hg (LinkGeometry.exchange_detachAll (held_of_find? hc hg))
    have hother : ∀ g' ∈ rest, (detached (c, inv) g).1.geometries.find? g'.link = some g' := by
      intro g' hg'
      have hne : g.link ≠ g'.link := fun heq => hlink (heq ▸ List.mem_map_of_mem hg')
      refine (Table.find?_set ..).trans ((if_neg hne).trans ?_)
      exact hfind g' (List.mem_cons_of_mem _ hg')
    obtain ⟨hnext, hfits'⟩ := ih hrest hother (hc.exchange hfirst) (hfits.setGeometry hg)
    exact ⟨hfirst.trans hnext, hfits'⟩

theorem hands_detachAll (hc : inv.Held c.held) (hfits : c.Fits names) (link : Option String) :
    Hands inv c.held held (fun c' => c'.Fits names) ((c.detachAll link).run inv) := by
  cases link with
  | some link =>
    rw [run_detachAll_link]
    cases hg : c.geometry link with
    | error e => exact .error (.refl hc.nodup)
    | ok g =>
      have hfind := find?_of_geometry hg
      have hself : c.geometries.find? g.link = some g := by rw [hfits.link link g hfind, hfind]
      have hset : Exchange inv (detached (c, inv) g).2 c.held (detached (c, inv) g).1.held :=
        exchange_setGeometry hc hself (LinkGeometry.exchange_detachAll (held_of_find? hc hself))
      exact .ok hset (hfits.setGeometry hself)
  | none =>
    rw [run_detachAll_all]
    have hnodup : (c.geometries.values.map LinkGeometry.link).Nodup :=
      hfits.map_link_values ▸ c.geometries.nodup_keys
    obtain ⟨hexchange, hfits'⟩ := exchange_detached hnodup (fun g => hfits.find?_link) hc hfits
    exact .ok hexchange hfits'

end RobotChecker

/-! ## Worlds -/

namespace WorldChecker

/-- The places of all obstacles of a world. -/
def held (w : WorldChecker α) : List Nat := w.objects.values

variable {w : WorldChecker α}

/-- The obstacle takes the place of the one that it replaces. -/
theorem hands_add (hw : inv.Held w.held) (name : String) (shape : ShapeSource α) {pose : PoseSource α}
    (hpose : pose.Checked) :
    Hands inv w.held (fun r => r.1.held) (fun _ => True) ((w.add name shape pose).run inv) := by
  rw [run_add_eq]
  cases hp : pose.toPose with
  | error e => exact .error (.refl hw.nodup)
  | ok p =>
    have hrole : ∀ q, (source name shape p).role = .ok (.obstacle q) → q.copy = .ok q := by
      rintro _ ⟨⟩
      exact hpose p hp
    refine ((Inventory.hands_build hrole w.params inv).beside hw).proceed
      (fun id inv₁ h _ => ?_) fun _ _ => trivial
    show Exchange inv (w.replacing name inv₁) w.held (w.objects.set name id).values
    unfold replacing
    cases hfind : w.objects.find? name with
    | none =>
      have hnew : name ∉ w.objects.keys := by
        rw [← Table.contains_iff, Table.contains, hfind]
        exact Bool.false_ne_true
      rw [Table.values_set_of_not_mem hnew]
      exact (h.perm (.refl _) List.perm_append_comm).of_bodies rfl
    | some previous =>
      obtain ⟨before, after, hvalues, hset, -⟩ := Table.exists_values_split hfind
      have hreleased : Exchange inv₁ (inv₁.releaseBody previous) ([id] ++ w.held) (before ++ id :: after) := by
        refine Inventory.exchange_release (hw.exchange h) ?_
        rw [held, hvalues, List.perm_iff_count]
        intro x
        simp only [List.count_append, List.count_cons, List.count_nil]
        omega
      rw [hset]
      exact (h.trans hreleased).of_bodies rfl

theorem hands_remove (hw : inv.Held w.held) (name : String) :
    Hands inv w.held held (fun _ => True) ((w.remove name).run inv) := by
  rw [run_remove]
  unfold object
  cases hfind : w.objects.find? name with
  | none => exact .error (.refl hw.nodup)
  | some id =>
    obtain ⟨before, after, hvalues, -, herase⟩ := Table.exists_values_split hfind
    have hreleased : Exchange inv (inv.releaseBody id) w.held (w.objects.erase name).values := by
      refine Inventory.exchange_release hw ?_
      rw [held, herase, hvalues]
      exact List.perm_middle
    exact .ok (hreleased.of_bodies rfl) trivial

theorem hands_clear (hw : inv.Held w.held) : Hands inv w.held held (fun _ => True) (w.clear.run inv) := by
  rw [run_clear]
  exact .ok (Inventory.exchange_releaseAll hw) trivial

end WorldChecker

end Clearance
