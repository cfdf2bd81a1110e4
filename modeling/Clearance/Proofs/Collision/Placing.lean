import Clearance.Proofs.Collision.FailedMaking
import Clearance.Proofs.Collision.Aggregation
import Clearance.Proofs.Collision.Holdings
import Clearance.Proofs.Field.Shapes
import Clearance.Proofs.Pairs

/-!
# The bodies and pairs of a query

A query on a robot places the bodies of a list of links, link by link, and enumerates the pairs of
them. The pairs are of places in that list, so a link that is named twice brings its bodies in twice,
and each of them is paired with itself.

* `RobotChecker.bodiesOf`: the bodies of a link.
* `RobotChecker.marked`, `RobotChecker.placed_eq_ok`: the placed bodies, each with its place in the
  inventory.
* `RobotChecker.nodup_bodies_iff`: which lists of links bring in no body twice.
* `Checkers.once_iff_of_comes`: which groups make a query pair no body with itself, and no two bodies
  twice.
-/

namespace Clearance

variable {α : Type}

/-! ## The bodies of links -/

namespace RobotChecker

/-- The places of the bodies of a link. -/
def bodiesOf (c : RobotChecker α) (link : String) : List Nat :=
  (c.geometries.find? link).elim [] LinkGeometry.bodies

/-- The placed bodies of a link, with their places in the inventory. A link without a pose has
    none. -/
def markedOn (c : RobotChecker α) (inv : Inventory α) (poses : LinkPoses α) (link : String) :
    List (Nat × PlacedBody α) :=
  match poses link with
  | .ok pose => (c.bodiesOf link).filterMap fun id => (placeBody inv link pose id).map fun b => (id, b)
  | .error _ => []

/-- The placed bodies of links, with their places in the inventory. -/
def marked (c : RobotChecker α) (inv : Inventory α) (poses : LinkPoses α) (links : List String) :
    List (Nat × PlacedBody α) := links.flatMap (c.markedOn inv poses)

/-- The links can be placed: each of them has bodies, if only an empty list of them, and a pose. -/
def CanPlace (c : RobotChecker α) (poses : LinkPoses α) (links : List String) : Prop :=
  ∀ link ∈ links, (∃ g, c.geometries.find? link = some g) ∧ ∃ pose, poses link = .ok pose

variable {c : RobotChecker α} {inv : Inventory α} {poses : LinkPoses α} {links : List String}

/-- The placed bodies of a link, one of those that a query places one after the other. -/
def placedOn (c : RobotChecker α) (inv : Inventory α) (poses : LinkPoses α) (link : String) :
    Except (Error α) (List (PlacedBody α)) :=
  match c.geometries.find? link with
  | none => .error (.fault .key)
  | some g => (poses link).map fun pose => g.bodies.filterMap (placeBody inv link pose)

theorem placedOn_eq_ok {link : String} {bodies : List (PlacedBody α)} :
    c.placedOn inv poses link = .ok bodies ↔
      ((∃ g, c.geometries.find? link = some g) ∧ ∃ pose, poses link = .ok pose) ∧
        bodies = (c.markedOn inv poses link).map Prod.snd := by
  have hsnd : ∀ pose (ids : List Nat),
      (ids.filterMap fun id => (placeBody inv link pose id).map fun b => (id, b)).map Prod.snd =
        ids.filterMap (placeBody inv link pose) := by
    intro pose ids
    rw [List.map_filterMap]
    refine List.filterMap_congr fun id _ => ?_
    rw [Option.map_map]
    exact Option.map_id'
  unfold placedOn markedOn bodiesOf
  cases c.geometries.find? link with
  | none => simp
  | some g =>
    cases poses link with
    | error e => simp [Except.map]
    | ok pose => simp [Except.map, hsnd, eq_comm]

/-- Bodies are placed link by link. -/
theorem placed_eq_map (c : RobotChecker α) (inv : Inventory α) (poses : LinkPoses α) (links : List String) :
    c.placed inv poses links = (links.mapM (c.placedOn inv poses)).map List.flatten := by
  have hstep : c.placedOn inv poses = fun link => do
      match c.geometries.find? link with
      | none => throw (.fault .key)
      | some g =>
        let pose ← poses link
        return g.bodies.filterMap (placeBody inv link pose) := by
    funext link
    unfold placedOn
    cases c.geometries.find? link with
    | none => rfl
    | some g => cases poses link <;> rfl
  rw [hstep]
  exact bind_pure_comp _ _

/-- Bodies are placed if their links can be. -/
theorem placed_eq_ok {bodies : List (PlacedBody α)} :
    c.placed inv poses links = .ok bodies ↔
      c.CanPlace poses links ∧ bodies = (c.marked inv poses links).map Prod.snd := by
  have hon : ∀ link bodies, c.placedOn inv poses link = .ok bodies →
      bodies = (c.markedOn inv poses link).map Prod.snd := fun _ _ h => (placedOn_eq_ok.mp h).2
  have hmarked : (c.marked inv poses links).map Prod.snd =
      (links.map fun link => (c.markedOn inv poses link).map Prod.snd).flatten := by
    rw [marked, List.map_flatMap, List.flatMap_def]
  rw [placed_eq_map, map_eq_ok, hmarked]
  constructor
  · rintro ⟨all, hall, rfl⟩
    obtain ⟨hok, rfl⟩ := (mapM_eq_map hon).mp hall
    exact ⟨fun link hlink => (placedOn_eq_ok.mp (hok link hlink)).1, rfl⟩
  · rintro ⟨hcan, rfl⟩
    refine ⟨_, (mapM_eq_map hon).mpr ⟨fun link hlink => ?_, rfl⟩, rfl⟩
    exact placedOn_eq_ok.mpr ⟨hcan link hlink, rfl⟩

/-- A placed body with its place: what is there under that place, on one of the links. -/
theorem mem_marked {e : Nat × PlacedBody α} (h : e ∈ c.marked inv poses links) :
    ∃ link ∈ links, ∃ pose, poses link = .ok pose ∧ e.1 ∈ c.bodiesOf link ∧
      placeBody inv link pose e.1 = some e.2 := by
  obtain ⟨link, hlink, h⟩ := List.mem_flatMap.mp h
  refine ⟨link, hlink, ?_⟩
  unfold markedOn at h
  cases hpose : poses link with
  | error _ =>
    rw [hpose] at h
    cases h
  | ok pose =>
    rw [hpose] at h
    obtain ⟨id, hid, h⟩ := List.mem_filterMap.mp h
    obtain ⟨b, hb, rfl⟩ := Option.map_eq_some_iff.mp h
    exact ⟨pose, rfl, hid, hb⟩

theorem body?_of_placeBody {link : String} {pose : Pose α} {id : Nat} {b : PlacedBody α}
    (h : placeBody inv link pose id = some b) : inv.body? id = some b.body := by
  obtain ⟨body, hbody, rfl⟩ := Option.map_eq_some_iff.mp h
  exact hbody

/-- Bodies that are there are placed, all of them. -/
theorem places_marked (hcan : c.CanPlace poses links)
    (hpresent : ∀ link ∈ links, ∀ id ∈ c.bodiesOf link, ∃ b, inv.body? id = some b) :
    (c.marked inv poses links).map Prod.fst = links.flatMap c.bodiesOf := by
  rw [marked, List.map_flatMap]
  refine List.flatMap_congr fun link hlink => ?_
  obtain ⟨-, pose, hpose⟩ := hcan link hlink
  unfold markedOn
  rw [hpose]
  dsimp only
  rw [List.map_filterMap]
  refine (List.filterMap_congr fun id hid => ?_).trans List.filterMap_some
  obtain ⟨b, hb⟩ := hpresent link hlink id hid
  simp [placeBody, hb]

/-! ## Bodies that are held once -/

variable [Scalar α]

omit [Scalar α] in
theorem mem_held_of_mem_bodiesOf {link : String} {id : Nat} (h : id ∈ c.bodiesOf link) : id ∈ c.held := by
  unfold bodiesOf at h
  cases hg : c.geometries.find? link with
  | none =>
    rw [hg] at h
    cases h
  | some g =>
    rw [hg] at h
    exact List.mem_flatMap_of_mem (Table.mem_values_of_find? hg) h

omit [Scalar α] in
theorem nodup_bodiesOf (hc : inv.Held c.held) (link : String) : (c.bodiesOf link).Nodup := by
  unfold bodiesOf
  cases hg : c.geometries.find? link with
  | none => exact List.nodup_nil
  | some g => exact (held_of_find? hc hg).nodup

omit [Scalar α] in
/-- A body that is held once is that of one link. -/
theorem link_eq_of_mem_bodiesOf (hc : c.held.Nodup) {link link' : String} {id : Nat}
    (h : id ∈ c.bodiesOf link) (h' : id ∈ c.bodiesOf link') : link = link' := by
  have hentry : ∀ l, id ∈ c.bodiesOf l → ∃ e ∈ c.geometries.entries, e.1 = l ∧ id ∈ e.2.bodies := by
    intro l hl
    unfold bodiesOf at hl
    cases hg : c.geometries.find? l with
    | none =>
      rw [hg] at hl
      cases hl
    | some g =>
      rw [hg] at hl
      obtain ⟨before, after, hsplit, -⟩ := Table.lookup_split c.geometries.nodup hg
      exact ⟨(l, g), by simp [hsplit], rfl, hl⟩
  obtain ⟨e, he, rfl, hid⟩ := hentry link h
  obtain ⟨e', he', rfl, hid'⟩ := hentry link' h'
  have hheld : c.held = c.geometries.entries.flatMap fun e => e.2.bodies := by
    rw [held, Table.values, List.flatMap_map]
  have hpairwise := (List.nodup_flatMap.mp (hheld ▸ hc)).2
  by_contra hne
  have : Std.Symm (Function.onFun List.Disjoint fun e : String × LinkGeometry α => e.2.bodies) :=
    ⟨fun _ _ h => h.symm⟩
  exact hpairwise.forall he he' (fun heq => hne (congrArg Prod.fst heq)) hid hid'

omit [Scalar α] in
/-- A list of links brings in no body twice if and only if no link that has bodies is named twice. -/
theorem nodup_bodies_iff (hc : inv.Held c.held) (links : List String) :
    (links.flatMap c.bodiesOf).Nodup ↔ (links.filter fun link => c.bodiesOf link ≠ []).Nodup := by
  have hdisjoint : ∀ link link', (c.bodiesOf link).Disjoint (c.bodiesOf link') ↔
      (c.bodiesOf link ≠ [] → c.bodiesOf link' ≠ [] → link ≠ link') := by
    intro link link'
    constructor
    · rintro h hne - rfl
      obtain ⟨id, hid⟩ := List.exists_mem_of_ne_nil _ hne
      exact h hid hid
    · intro h id hid hid'
      exact h (List.ne_nil_of_mem hid) (List.ne_nil_of_mem hid') (link_eq_of_mem_bodiesOf hc.nodup hid hid')
  show _ ↔ List.Pairwise (· ≠ ·) (links.filter _)
  rw [List.nodup_flatMap, List.pairwise_filter]
  simp only [nodup_bodiesOf hc, implies_true, true_and, decide_eq_true_eq]
  exact List.Pairwise.iff hdisjoint

end RobotChecker

/-! ## Pairs of bodies -/

/-- No body is paired with itself, and no two bodies are paired twice, in whichever order. -/
structure Once (es : List (Nat × Nat)) : Prop where
  irrefl : ∀ i, (i, i) ∉ es
  nodup : es.Nodup
  asymm : ∀ i j, (i, j) ∈ es → (j, i) ∉ es

theorem once_pairs_iff {ids : List Nat} : Once (RobotModel.pairs ids) ↔ ids.Nodup := by
  constructor
  · intro h
    refine RobotModel.nodup_iff_of_mem_pairs.mpr ?_
    rintro i _ hij rfl
    exact h.irrefl i hij
  · intro h
    refine ⟨fun i hi => ?_, RobotModel.nodup_pairs h, fun i j hij => RobotModel.not_mem_pairs_swap h hij⟩
    exact RobotModel.nodup_iff_of_mem_pairs.mp h i i hi rfl

/-! ## Groups and states -/

section Links

variable [Scalar α] {m : RobotModel α} {links : List String}

/-- A group of a grown model consists of links that are there. -/
theorem RobotModel.Grown.mem_linkNames_of_group (hm : m.Grown) {name : Option String}
    (h : RobotChecker.group m name = .ok links) : ∀ link ∈ links, link ∈ m.linkNames := by
  unfold RobotChecker.group at h
  split at h
  · rename_i hlinks
    cases h
    obtain ⟨key, -, hfind⟩ := Option.bind_eq_some_iff.mp hlinks
    exact hm.knowsGroups key _ hfind
  · split at h
    · cases h
      exact fun _ => id
    · cases h

/-- A link of the model has a pose in every state that came about. -/
theorem RobotState.Stands.exists_linkPose {root : PoseSource α} {past : List (RobotState.Action α)}
    {st : RobotState α} (h : RobotState.Stands m root past st) {link : String} (hlink : link ∈ m.linkNames) :
    ∃ p, st.linkPose m link = .ok p := by
  obtain ⟨p, hp, hcopy, -⟩ := h.poses link hlink
  refine ⟨p, ?_⟩
  unfold RobotState.linkPose
  rw [hp]
  exact hcopy

/-- The links of a model can be placed for a checker that has them. -/
theorem RobotChecker.Fits.canPlace {c : RobotChecker α} (hc : c.Fits m.linkNames) {root : PoseSource α}
    {past : List (RobotState.Action α)} {st : RobotState α} (hst : RobotState.Stands m root past st)
    (hlinks : ∀ link ∈ links, link ∈ m.linkNames) : c.CanPlace (st.linkPose m) links := by
  intro link hlink
  refine ⟨Option.isSome_iff_exists.mp ?_, hst.exists_linkPose (hlinks link hlink)⟩
  exact (Table.contains_iff _ _).mpr (hc.keys ▸ hlinks link hlink)

end Links

namespace Checkers

/-! ## Bodies of checkers -/

section Bodies

variable [Scalar α] {models : List (RobotModel α)} {hand : List Nat} {s : Checkers α} {c : RobotChecker α}

omit [Scalar α] in
theorem mem_held_of_robot (hc : c ∈ s.robots) {id : Nat} (hid : id ∈ c.held) : id ∈ s.held :=
  List.mem_append_left _ (List.mem_flatMap_of_mem hc hid)

/-- A checker holds each of its bodies once. -/
theorem Kept.heldBy (hs : s.Kept models hand) (hc : c ∈ s.robots) : s.inventory.Held c.held := by
  refine ⟨?_, fun id hid => hs.held.present id (mem_held_of_robot hc hid)⟩
  exact (List.nodup_flatMap.mp (List.nodup_append.mp hs.held.nodup).1).1 c hc

/-- The bodies of the links of a checker are there. -/
theorem Kept.exists_body (hs : s.Kept models hand) (hc : c ∈ s.robots) {link : String} {id : Nat}
    (hid : id ∈ c.bodiesOf link) :
    ∃ b, s.inventory.body? id = some b ∧ (b.isReleased = true → id ∈ hand) :=
  hs.released id (mem_held_of_robot hc (RobotChecker.mem_held_of_mem_bodiesOf hid))

/-- A placed body has its contents unless it was released by hand. -/
theorem Kept.exists_content (hs : s.Kept models hand) (hc : c ∈ s.robots) {poses : LinkPoses α}
    {links : List String} (hhand : ∀ link ∈ links, ∀ id ∈ c.bodiesOf link, id ∉ hand)
    {e : Nat × PlacedBody α} (he : e ∈ c.marked s.inventory poses links) :
    ∃ content, e.2.content = .ok content := by
  obtain ⟨link, hlink, pose, -, hid, hplace⟩ := RobotChecker.mem_marked he
  obtain ⟨b, hb, hreleased⟩ := hs.exists_body hc hid
  cases (RobotChecker.body?_of_placeBody hplace).symm.trans hb
  cases hcontent : e.2.body.content with
  | none => exact absurd (hreleased (by rw [Body.isReleased, hcontent]; rfl)) (hhand link hlink e.1 hid)
  | some content => exact ⟨content, PlacedBody.content_eq_ok.mpr hcontent⟩

/-- The bodies of links are placed, all of them. -/
theorem Kept.places_marked (hs : s.Kept models hand) (hc : c ∈ s.robots) {poses : LinkPoses α} {links : List String}
    (hcan : c.CanPlace poses links) :
    (c.marked s.inventory poses links).map Prod.fst = links.flatMap c.bodiesOf := by
  refine RobotChecker.places_marked hcan fun link _ id hid => ?_
  obtain ⟨b, hb, -⟩ := hs.exists_body hc hid
  exact ⟨b, hb⟩

/-- A request on links that can be placed is about their bodies. -/
theorem requested_of_canPlace {inv : Inventory α} {m : RobotModel α} {poses : LinkPoses α}
    {request : CollisionRequest α} {links : List String} (hvalid : request.validate = .ok ())
    (hlinks : RobotChecker.group m request.group = .ok links) (hcan : c.CanPlace poses links) :
    c.requested inv m poses request = .ok ((c.marked inv poses links).map Prod.snd) :=
  bind_eq_ok.mpr ⟨_, hvalid, bind_eq_ok.mpr ⟨links, hlinks, RobotChecker.placed_eq_ok.mpr ⟨hcan, rfl⟩⟩⟩

end Bodies

/-! ## Two cubes -/

section Cubes

open DistanceField (cube cubeGrid)

/-- The parameters of a cube whose field is kept in no cache. -/
noncomputable def aloneParams : BodyParams ℝ := ⟨cubeGrid, none, none⟩

/-- The pose of the tool on the base: a corner of the tool is in the middle of the base. -/
noncomputable def mountPose : Pose ℝ := ⟨⟨4, 4, 4⟩, Mat3.identity, ""⟩

/-- A base that is a cube, and a tool that is one too. -/
noncomputable def cubes : RobotModel ℝ :=
  let base := (RobotModel.empty .plain (some "arm")).addLink
    ⟨"base", none, none, none, [.shape cube], none⟩
  (base.model.addLink
    ⟨"tool", some "base", some (.fixed (some "mount") mountPose), none, [.shape cube], none⟩).model

theorem grown_cubes : cubes.Grown := .addLink _ (.addLink _ (.empty _ _))

theorem links_cubes : cubes.links.values =
    [⟨"base", [⟨cube, .origin⟩], none, ["tool"], none⟩,
      ⟨"tool", [⟨cube, .origin⟩], some "base", [], some "mount"⟩] := rfl

/-- The body of a link that is a cube, with a field of its own. -/
structure IsCube (b : Body ℝ) (name : String) (content : BodyContent ℝ) : Prop where
  name : b.name = name
  role : b.role = .link
  owned : b.content = some content
  field : (DistanceField.ofShapes .standard [.shape cube] (some [.pose .origin]) cubeGrid).1 = .ok content.field
  resolution : content.field.resolution = 1
  corner : ⟨-4, -4, -4⟩ ∈ content.samples

/-- A body that is a cube can be built. But for its role it is like that of a link. -/
theorem exists_build_cube {source : BodySource ℝ} {role : BodyRole ℝ}
    (hshapes : Inventory.placedShapes source = .ok [⟨cube, .origin⟩]) (hrole : source.role = .ok role)
    (inv : Inventory ℝ) (hsettings : inv.settings = .standard) :
    ∃ b content inv', IsCube { b with role := .link } source.name content ∧ b.role = role ∧
      inv'.bodies = inv.bodies.push b ∧ inv'.settings = inv.settings ∧
      (Inventory.build source aloneParams).run inv = (.ok inv.bodies.size, inv') := by
  have hposes : FieldPlan.alignPoses 1 (some [.pose Pose.origin]) =
      (.ok [Pose.origin] : Except (Error ℝ) _) :=
    mapM_eq_ok.mpr (.cons Pose.toPose_origin .nil)
  obtain ⟨f, hf, hresolution⟩ := DistanceField.exists_cube hposes
  have hfield : (DistanceField.ofShapes inv.settings (Inventory.sources [⟨cube, .origin⟩])
      (Inventory.poseSources [⟨cube, .origin⟩]) aloneParams.grid).1 = .ok f := by
    rw [hsettings]
    exact hf
  obtain ⟨b, spacing, samples, inv', hname, hrole', hcontent, -, hsamples, hbodies, hsame, hrun⟩ :=
    Inventory.exists_build_alone hrole hshapes (List.cons_ne_nil _ _) DistanceField.isBox_cube rfl rfl hfield
  refine ⟨b, ⟨[⟨cube, .origin⟩], f, none, samples⟩, inv', ?_, hrole', hbodies, hsame, hrun⟩
  refine ⟨hname, rfl, hcontent, hf, hresolution, Body.corner_mem_samplesOf hsamples ?_⟩
  norm_num [Box.half_eq, Primitive.corners, Vec3.neg_def]

/-- The body of such a link can be built. -/
theorem exists_makeGeometry_cube {l : Link ℝ} (hl : l.shapes = [⟨cube, .origin⟩]) (inv : Inventory ℝ)
    (hsettings : inv.settings = .standard) :
    ∃ b content inv', IsCube b l.name content ∧ inv'.bodies = inv.bodies.push b ∧
      inv'.settings = inv.settings ∧
      (RobotChecker.makeGeometry aloneParams l).run inv =
        (.ok ⟨l.name, some inv.bodies.size, Table.empty, aloneParams⟩, inv') := by
  have hsource : RobotChecker.ownSource l = ⟨l.name, .ok .link, [.shape cube], some [.pose .origin]⟩ := by
    rw [RobotChecker.ownSource, hl]
    rfl
  have hshapes : Inventory.placedShapes (RobotChecker.ownSource l) = .ok [⟨cube, .origin⟩] := by
    rw [hsource]
    exact RobotChecker.placedShapes_origin _ _ cube
  have hown : (RobotChecker.ownSource l).role = .ok .link := rfl
  obtain ⟨b, content, inv', hcube, hrole, hbodies, hsame, hrun⟩ :=
    exists_build_cube hshapes hown inv hsettings
  have hlink : { b with role := .link } = b := by rw [← hrole]
  rw [hlink] at hcube
  refine ⟨b, content, inv', hcube, hbodies, hsame, ?_⟩
  rw [RobotChecker.run_makeGeometry, hl, hrun]
  rfl

/-- The checker of the two cubes, which are no neighbours for it. -/
noncomputable def cubesChecker : RobotChecker ℝ :=
  ⟨some "arm", [], Table.ofList [("base", ⟨"base", some 0, Table.empty, aloneParams⟩),
    ("tool", ⟨"tool", some 1, Table.empty, aloneParams⟩)]⟩

/-- The checker of the two cubes can be made, which leaves the settings as they are. -/
theorem exists_make_standard_cubes : ∃ base tool inside outside inv, IsCube base "base" inside ∧
    IsCube tool "tool" outside ∧ inv.bodies = #[base, tool] ∧ inv.settings = .standard ∧
    (RobotChecker.make cubes (some []) aloneParams).run (Inventory.start .standard 0) =
      (.ok cubesChecker, inv) := by
  let first : Link ℝ := ⟨"base", [⟨cube, .origin⟩], none, ["tool"], none⟩
  let second : Link ℝ := ⟨"tool", [⟨cube, .origin⟩], some "base", [], some "mount"⟩
  obtain ⟨base, inside, inv₁, hbase, hbodies₁, hsettings₁, hrun₁⟩ :=
    exists_makeGeometry_cube (l := first) rfl (Inventory.start .standard 0) rfl
  obtain ⟨tool, outside, inv₂, htool, hbodies₂, hsettings₂, hrun₂⟩ :=
    exists_makeGeometry_cube (l := second) rfl inv₁ hsettings₁
  refine ⟨base, tool, inside, outside, inv₂.noting (.robotCreated 2 (some "arm")), hbase, htool, ?_,
    hsettings₂.trans hsettings₁, ?_⟩
  · exact hbodies₂.trans (congrArg (·.push tool) hbodies₁)
  · rw [RobotChecker.run_make, show RobotChecker.neighbourPairs cubes (some []) = .ok [] from rfl]
    dsimp only
    rw [links_cubes, RobotChecker.run_makeGeometries_cons, hrun₁]
    dsimp only
    rw [RobotChecker.run_makeGeometries_cons, hrun₂, hbodies₁]
    rfl

theorem exists_make_cubes : ∃ base tool inside outside inv, IsCube base "base" inside ∧
    IsCube tool "tool" outside ∧ inv.bodies = #[base, tool] ∧
    (RobotChecker.make cubes (some []) aloneParams).run (Inventory.start .standard 0) =
      (.ok cubesChecker, inv) := by
  obtain ⟨base, tool, inside, outside, inv, hbase, htool, hbodies, -, hmake⟩ := exists_make_standard_cubes
  exact ⟨base, tool, inside, outside, inv, hbase, htool, hbodies, hmake⟩

/-- The checker of the two cubes comes about on an inventory without caches. -/
theorem recorded_cubes {inv : Inventory ℝ}
    (hmake : (RobotChecker.make cubes (some []) aloneParams).run (Inventory.start .standard 0) =
      (.ok cubesChecker, inv)) : Recorded .standard [cubes] [] [] ⟨inv, [cubesChecker], []⟩ :=
  .robot (.start 0 trivial) grown_cubes hmake

/-- By default the base stands at the origin, and the tool where it is mounted. -/
theorem atDefaults_cubes : RobotState.atDefaults cubes .absent =
    .ok ⟨.origin, Table.empty, (Table.empty.set "base" .origin).set "tool" mountPose⟩ := by
  let base : Link ℝ := ⟨"base", [⟨cube, .origin⟩], none, ["tool"], none⟩
  let tool : Link ℝ := ⟨"tool", [⟨cube, .origin⟩], some "base", [], some "mount"⟩
  let placed : Table String (Pose ℝ) := Table.empty.set "base" .origin
  have hbase : RobotState.placeLink cubes .origin Table.empty Table.empty base = .ok .origin :=
    Pose.toPose_origin
  have htool : RobotState.placeLink cubes .origin Table.empty placed tool = .ok mountPose := by
    have hcopy : mountPose.copy = .ok mountPose := Pose.make_identity _ _
    have hmount : Pose.origin.transform mountPose = .ok mountPose := by
      refine (Pose.transform_of_identity _ _ _ _).trans (congrArg Except.ok ?_)
      simp [mountPose, Mat3.mulVec, Mat3.identity, Vec3.dot]
    exact bind_eq_ok.mpr ⟨_, rfl, bind_eq_ok.mpr ⟨_, hcopy, hmount⟩⟩
  have hforward : RobotState.forward cubes .origin Table.empty = .ok (placed.set "tool" mountPose) :=
    bind_eq_ok.mpr ⟨placed, bind_eq_ok.mpr ⟨_, hbase, rfl⟩,
      bind_eq_ok.mpr ⟨_, bind_eq_ok.mpr ⟨_, htool, rfl⟩, rfl⟩⟩
  exact bind_eq_ok.mpr ⟨_, rfl, bind_eq_ok.mpr ⟨_, rfl, bind_eq_ok.mpr ⟨_, hforward, rfl⟩⟩⟩

/-- The state of the two cubes at the default values. -/
noncomputable def cubesState : RobotState ℝ :=
  ⟨.origin, Table.empty, (Table.empty.set "base" .origin).set "tool" mountPose⟩

/-- The body of the base and that of the tool, where they stand then. -/
noncomputable def placedBase (b : Body ℝ) : PlacedBody ℝ :=
  ⟨"base", some "base", "robot_link", b, .origin, []⟩

noncomputable def placedTool (b : Body ℝ) : PlacedBody ℝ :=
  ⟨"tool", some "tool", "robot_link", b, mountPose, []⟩

theorem linkPose_base (m : RobotModel ℝ) : cubesState.linkPose m "base" = .ok .origin := Pose.toPose_origin

theorem linkPose_tool (m : RobotModel ℝ) : cubesState.linkPose m "tool" = .ok mountPose :=
  Pose.make_identity _ _

variable {base tool : Body ℝ} {inside outside : BodyContent ℝ} {inv : Inventory ℝ}

/-- A link that is a cube brings in its own body. -/
theorem markedOn_cube {c : RobotChecker ℝ} {poses : LinkPoses ℝ} {b : Body ℝ} {name : String}
    {content : BodyContent ℝ} {id : ℕ} {pose : Pose ℝ} (hcube : IsCube b name content)
    (hbody : inv.body? id = some b) (hown : c.bodiesOf name = [id]) (hpose : poses name = .ok pose) :
    c.markedOn inv poses name = [(id, ⟨name, some name, "robot_link", b, pose, []⟩)] := by
  have hplace : RobotChecker.placeBody inv name pose id = some ⟨name, some name, "robot_link", b, pose, []⟩ := by
    rw [RobotChecker.placeBody, hbody, Option.map_some, hcube.role, hcube.name]
    rfl
  rw [RobotChecker.markedOn, hpose, hown]
  show [id].filterMap _ = _
  rw [List.filterMap_cons_some (by rw [hplace]; rfl), List.filterMap_nil]

theorem markedOn_base (hbase : IsCube base "base" inside) (hbodies : inv.bodies = #[base, tool])
    (m : RobotModel ℝ) :
    cubesChecker.markedOn inv (cubesState.linkPose m) "base" = [(0, placedBase base)] :=
  markedOn_cube hbase (by rw [Inventory.body?, hbodies]; rfl) rfl (linkPose_base m)

theorem markedOn_tool (htool : IsCube tool "tool" outside) (hbodies : inv.bodies = #[base, tool])
    (m : RobotModel ℝ) :
    cubesChecker.markedOn inv (cubesState.linkPose m) "tool" = [(1, placedTool tool)] :=
  markedOn_cube htool (by rw [Inventory.body?, hbodies]; rfl) rfl (linkPose_tool m)

theorem canPlace_cubes (m : RobotModel ℝ) {links : List String}
    (hlinks : ∀ link ∈ links, link = "base" ∨ link = "tool") :
    cubesChecker.CanPlace (cubesState.linkPose m) links := by
  intro link hlink
  rcases hlinks link hlink with rfl | rfl
  · exact ⟨⟨_, rfl⟩, _, linkPose_base m⟩
  · exact ⟨⟨_, rfl⟩, _, linkPose_tool m⟩

end Cubes

/-! ## The pairs of a query -/

variable [Scalar α] {models : List (RobotModel α)} {hand : List Nat} {s : Checkers α} {c : RobotChecker α}

/-- Whatever happened to the checkers before, a query enumerates the pairs of the bodies of its links,
    as often as the links are named. It pairs no body with itself and no two bodies twice if and only
    if it names no link twice that has bodies. -/
theorem once_iff_of_comes {settings : Settings α} (h : Comes settings models hand s) (c : RobotChecker α)
    (hc : c ∈ s.robots) (m : RobotModel α) (poses : LinkPoses α) (allowed : Option AllowedCollisions)
    (request : CollisionRequest α) (links : List String)
    (hlinks : RobotChecker.group m request.group = .ok links) (bodies : List (PlacedBody α))
    (hbodies : c.requested s.inventory m poses request = .ok bodies) :
    ∃ marked : List (Nat × PlacedBody α),
      marked.map Prod.snd = bodies ∧ marked.map Prod.fst = links.flatMap c.bodiesOf ∧
      (∀ e ∈ marked, s.inventory.body? e.1 = some e.2.body) ∧
      c.candidates allowed bodies =
        (RobotModel.pairs marked).map (fun e => c.candidate allowed e.1.2 e.2.2) ∧
      (Once ((RobotModel.pairs marked).map fun e => (e.1.1, e.2.1)) ↔
        (links.filter fun link => c.bodiesOf link ≠ []).Nodup) := by
  have hs := kept_of_comes h
  obtain ⟨hcan, rfl⟩ : c.CanPlace poses links ∧
      bodies = (c.marked s.inventory poses links).map Prod.snd := by
    obtain ⟨_, -, hrequested⟩ := bind_eq_ok.mp hbodies
    obtain ⟨links', hlinks', hplaced⟩ := bind_eq_ok.mp hrequested
    cases hlinks.symm.trans hlinks'
    exact RobotChecker.placed_eq_ok.mp hplaced
  have hplaces := hs.places_marked hc hcan
  refine ⟨_, rfl, hplaces, fun e he => ?_, ?_, ?_⟩
  · obtain ⟨link, -, pose, -, -, hplace⟩ := RobotChecker.mem_marked he
    exact RobotChecker.body?_of_placeBody hplace
  · rw [RobotChecker.candidates, RobotModel.pairs_map, List.map_map]
    rfl
  · rw [← RobotModel.pairs_map, once_pairs_iff, hplaces]
    exact RobotChecker.nodup_bodies_iff (hs.heldBy hc) links

/-- The two cubes are paired once. -/
theorem once_iff_of_comes_cubes : ∃ inv bodies,
    let request : CollisionRequest ℝ := { CollisionRequest.standard with group := none }
    Comes .standard [cubes] [] ⟨inv, [cubesChecker], []⟩ ∧ cubesChecker ∈ [cubesChecker] ∧
    RobotChecker.group cubes request.group = .ok ["base", "tool"] ∧
    cubesChecker.requested inv cubes (cubesState.linkPose cubes) request = .ok bodies ∧
    ∃ marked : List (Nat × PlacedBody ℝ), marked.map Prod.snd = bodies ∧ marked.map Prod.fst = [0, 1] ∧
      Once ((RobotModel.pairs marked).map fun e => (e.1.1, e.2.1)) := by
  obtain ⟨base, tool, inside, outside, inv, hbase, htool, hbodies, hmake⟩ := exists_make_cubes
  have hcomes : Comes .standard [cubes] [] ⟨inv, [cubesChecker], []⟩ := ⟨_, recorded_cubes hmake⟩
  have hrequested : cubesChecker.requested inv cubes (cubesState.linkPose cubes)
      { CollisionRequest.standard with group := none } =
        .ok ((cubesChecker.marked inv (cubesState.linkPose cubes) ["base", "tool"]).map Prod.snd) :=
    requested_of_canPlace rfl rfl (canPlace_cubes cubes (by simp))
  obtain ⟨marked, hmarked, hplaces, -, -, honce⟩ := once_iff_of_comes hcomes cubesChecker
    (List.mem_singleton_self _) cubes (cubesState.linkPose cubes) none
    { CollisionRequest.standard with group := none } ["base", "tool"] rfl _ hrequested
  refine ⟨inv, _, hcomes, List.mem_singleton_self _, rfl, hrequested, marked, hmarked, hplaces, honce.mpr ?_⟩
  exact List.Nodup.filter _ (by simp)

/-- The two cubes with a group that names the base twice. -/
noncomputable def twiceNamed : RobotModel ℝ :=
  { cubes with groups := cubes.groups.set "twice" ["base", "base"] }

/-- A group that names a link twice is accepted, and a query on it compares the body of the link with
    itself. -/
theorem exists_paired_with_itself : ∃ inv b,
    let request : CollisionRequest ℝ := { CollisionRequest.standard with group := some "twice" }
    twiceNamed.Grown ∧ cubes.addGroup "twice" ["base", "base"] = .ok twiceNamed ∧
    Comes .standard [twiceNamed] [] ⟨inv, [cubesChecker], []⟩ ∧
    RobotState.Run twiceNamed .absent [] cubesState ∧
    cubesChecker.requested inv twiceNamed (cubesState.linkPose twiceNamed) request = .ok [b, b] ∧
    cubesChecker.candidates none [b, b] = [.pair b b] := by
  obtain ⟨base, tool, inside, outside, inv, hbase, htool, hbodies, hmake⟩ := exists_make_cubes
  have hgroup : cubes.addGroup "twice" ["base", "base"] = .ok twiceNamed := rfl
  have hgrown : twiceNamed.Grown := .addGroup grown_cubes hgroup
  -- Groups do not matter when a checker is made.
  have hmake' : (RobotChecker.make twiceNamed (some []) aloneParams).run (Inventory.start .standard 0) =
      (.ok cubesChecker, inv) := hmake
  have hmarked := markedOn_base hbase hbodies twiceNamed
  have hcomes : Comes .standard [twiceNamed] [] ⟨inv, [cubesChecker], []⟩ :=
    ⟨_, .robot (.start 0 trivial) hgrown hmake'⟩
  refine ⟨inv, placedBase base, hgrown, hgroup, hcomes, .start atDefaults_cubes, ?_, ?_⟩
  · have hcan : cubesChecker.CanPlace (cubesState.linkPose twiceNamed) ["base", "base"] :=
      canPlace_cubes twiceNamed (by simp)
    refine (requested_of_canPlace rfl rfl hcan).trans (congrArg Except.ok ?_)
    simp [RobotChecker.marked, hmarked]
  · rfl

end Checkers

end Clearance
