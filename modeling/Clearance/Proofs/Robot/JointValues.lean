import Clearance.Proofs.Number.Binary64Order
import Clearance.Proofs.Robot.StateRuns

/-!
# Joint values within their limits

Joint values enter a state as defaults, by writes that move them within the limits of their joints,
and with copies. Whatever is done, and whether it fails or not, the joints that take a value keep
theirs in order. Two things escape: a value that is not a number passes the comparisons with the
limits, and a fixed joint that is written has an entry from then on.

* `Joint.IsBounded`, `Joint.Allows`: joints whose limits are in order, and the values within them.
* `Joint.IsBounded.clamp`: what becomes of a value.
* `RobotState.leftAfter`: the state that any actions leave behind.
* `RobotState.Holding`, `RobotState.holding_leftAfter`: the invariant.
* `RobotState.values_leftAfter`: names and values at binary64.
-/

namespace Clearance

variable {α : Type} [Scalar α]

/-- What a parameter is compared by is what it stands for. -/
theorem Given.toScalar_of_compare? {g : Given α} {x : α} (h : g.compare? = .ok x) : g.toScalar = .ok x := by
  cases g with
  | text => cases h
  | _ => exact h

/-! ## One joint -/

namespace Joint

variable {j : Joint α} {x y : α} {kept : Given α} {event : Option (Event α)}

/-- A joint that is fixed at zero, turns or shifts, and whose limits are numbers in order. -/
structure IsBounded (j : Joint α) : Prop where
  kind : j.kind ≠ .unspecified
  ordered : ∃ lo hi, j.least.compare? = .ok lo ∧ j.greatest.compare? = .ok hi ∧ Scalar.le lo hi = true
  fixed : j.kind = .fixed → j.least = .real 0 ∧ j.greatest = .real 0

/-- The value is within the limits of the joint. -/
def Allows (j : Joint α) (x : α) : Prop :=
  ∃ lo hi, j.least.compare? = .ok lo ∧ j.greatest.compare? = .ok hi ∧
    Scalar.le lo x = true ∧ Scalar.le x hi = true

/-- A bounded joint takes a value unless it is fixed. -/
theorem IsBounded.degrees (hj : j.IsBounded) : ∃ n, j.degrees = .ok n ∧ (0 < n ↔ j.kind ≠ .fixed) := by
  unfold Joint.degrees
  cases hkind : j.kind with
  | fixed => exact ⟨0, rfl, by simp⟩
  | rotational axis => exact ⟨1, rfl, by simp⟩
  | linear axis => exact ⟨1, rfl, by simp⟩
  | unspecified => exact absurd hkind hj.kind

variable [LawfulScalar α]

/-- The default value of a bounded joint is within its limits. -/
theorem IsBounded.allows_default (hzero : Scalar.le (0 : α) 0 = true) (hj : j.IsBounded)
    (h : j.defaultValue = .ok x) : j.Allows x := by
  obtain ⟨lo, hi, hlo, hhi, hle⟩ := hj.ordered
  obtain ⟨lo', hlo', h⟩ := bind_eq_ok.mp h
  obtain ⟨hi', hhi', h⟩ := bind_eq_ok.mp h
  cases hlo.symm.trans hlo'
  cases hhi.symm.trans hhi'
  cases h
  obtain ⟨hlolo, hhihi⟩ := LawfulScalar.le_self_of_le hle
  have hraised : Scalar.le lo (Scalar.max 0 lo) = true ∧
      Scalar.le (Scalar.max 0 lo) (Scalar.max 0 lo) = true := by
    unfold Scalar.max
    split
    · rename_i h0
      rcases Bool.or_eq_true_iff.mp h0 with h0 | h0
      · exact ⟨h0, hzero⟩
      · rw [Scalar.isNaN_iff_le_self, hzero] at h0
        cases h0
    · exact ⟨hlolo, hlolo⟩
  refine ⟨lo, hi, hlo, hhi, ?_⟩
  unfold Scalar.clip Scalar.min
  split
  · rename_i hm
    rcases Bool.or_eq_true_iff.mp hm with hm | hm
    · exact ⟨hraised.1, hm⟩
    · rw [Scalar.isNaN_iff_le_self, hraised.2] at hm
      cases hm
  · exact ⟨hle, hhihi⟩

omit [LawfulScalar α] in
/-- What a joint that moves makes of a scalar, in terms of its limits. -/
theorem clamp_of_moves {lo hi : α} (hmoves : j.kind ≠ .fixed) (hlo : j.least.compare? = .ok lo)
    (hhi : j.greatest.compare? = .ok hi) : j.clamp (.real y) = .ok
      (if Scalar.lt hi y = true then (j.greatest, some (.jointLimit j.written (.real y) .greatest j.greatest))
      else if Scalar.lt y lo = true then (j.least, some (.jointLimit j.written (.real y) .least j.least))
      else (.real y, none)) := by
  have habove : exceeds (.real y) j.greatest = .ok (Scalar.lt hi y) :=
    bind_eq_ok.mpr ⟨y, rfl, bind_eq_ok.mpr ⟨hi, hhi, rfl⟩⟩
  have hbelow : exceeds j.least (.real y) = .ok (Scalar.lt y lo) :=
    bind_eq_ok.mpr ⟨lo, hlo, bind_eq_ok.mpr ⟨y, rfl, rfl⟩⟩
  unfold Joint.clamp
  cases hkind : j.kind with
  | fixed => exact absurd hkind hmoves
  | _ =>
    simp only [habove, hbelow]
    cases Scalar.lt hi y <;> cases Scalar.lt y lo <;> rfl

/-- A value that was moved within the limits of a bounded joint is within them, unless it was no
    number and stayed as it was. -/
theorem IsBounded.clamp (hzero : Scalar.le (0 : α) 0 = true) (hj : j.IsBounded)
    (h : j.clamp (.real y) = .ok (kept, event)) (hkept : kept.toScalar = .ok x) :
    j.Allows x ∨ j.kind ≠ .fixed ∧ Scalar.isNaN x = true ∧ x = y := by
  obtain ⟨lo, hi, hlo, hhi, hle⟩ := hj.ordered
  obtain ⟨hlolo, hhihi⟩ := LawfulScalar.le_self_of_le hle
  by_cases hfixed : j.kind = .fixed
  · obtain ⟨hleast, hgreatest⟩ := hj.fixed hfixed
    rw [Joint.clamp, hfixed] at h
    cases h
    cases hkept
    exact .inl ⟨0, 0, hleast ▸ rfl, hgreatest ▸ rfl, hzero, hzero⟩
  · rw [clamp_of_moves hfixed hlo hhi] at h
    by_cases hover : Scalar.lt hi y = true
    · rw [if_pos hover] at h
      cases h
      cases (Given.toScalar_of_compare? hhi).symm.trans hkept
      exact .inl ⟨_, _, hlo, hhi, hle, hhihi⟩
    · rw [if_neg hover] at h
      by_cases hunder : Scalar.lt y lo = true
      · rw [if_pos hunder] at h
        cases h
        cases (Given.toScalar_of_compare? hlo).symm.trans hkept
        exact .inl ⟨_, _, hlo, hhi, hlolo, hle⟩
      · rw [if_neg hunder] at h
        cases h
        cases hkept
        by_cases hnumber : Scalar.le x x = true
        · exact .inl ⟨_, _, hlo, hhi, Scalar.le_of_not_lt hlolo hnumber hunder,
            Scalar.le_of_not_lt hnumber hhihi hover⟩
        · exact .inr ⟨hfixed, Scalar.isNaN_iff_le_self.mpr (Bool.not_eq_true _ ▸ hnumber), rfl⟩

end Joint

/-! ## Names and defaults -/

namespace RobotModel

variable {m : RobotModel α} {names : List String} {values : Table String α}

omit [Scalar α] in
/-- The joints that take a value are those with a degree of freedom, in order. -/
theorem jointNames_spec (h : m.jointNames = .ok names) : names.Nodup ∧
    ∀ name, name ∈ names ↔ ∃ j n, m.joints.find? name = some j ∧ j.degrees = .ok n ∧ 0 < n := by
  obtain ⟨degrees, hdegrees, h⟩ := bind_eq_ok.mp h
  have hnames : names = (degrees.filter fun e => 0 < e.2).map Prod.fst := by
    rw [← Except.ok.inj h, ← List.filterMap_eq_map, ← List.filterMap_eq_filter, List.filterMap_filterMap]
    refine List.filterMap_congr fun e _ => ?_
    by_cases hn : 0 < e.2 <;> simp [Option.guard, hn]
  have hkeys : degrees.map Prod.fst = m.joints.keys :=
    map_eq_of_mapM (fun e d hd => by
      obtain ⟨n, -, rfl⟩ := map_eq_ok.mp hd
      rfl) hdegrees
  refine ⟨?_, fun name => ?_⟩
  · rw [hnames]
    exact (hkeys ▸ m.joints.nodup_keys).sublist (List.filter_sublist.map _)
  · rw [hnames, List.mem_map]
    constructor
    · rintro ⟨⟨name', n⟩, he, rfl⟩
      obtain ⟨he, hn⟩ := List.mem_filter.mp he
      obtain ⟨⟨_, j⟩, hj, hmap⟩ := exists_of_mem_mapM hdegrees he
      obtain ⟨_, hdegree, heq⟩ := map_eq_ok.mp hmap
      cases heq
      exact ⟨j, n, Table.find?_of_mem hj, hdegree, of_decide_eq_true hn⟩
    · rintro ⟨j, n, hj, hdegree, hn⟩
      obtain ⟨e, he, hmap⟩ := exists_of_mapM hdegrees (Table.mem_entries_of_lookup hj)
      obtain ⟨n', hdegree', rfl⟩ := map_eq_ok.mp hmap
      cases hdegree.symm.trans hdegree'
      exact ⟨_, List.mem_filter.mpr ⟨he, decide_eq_true hn⟩, rfl⟩

/-- A bounded joint is among those that take a value unless it is fixed. -/
theorem mem_jointNames (h : m.jointNames = .ok names) {name : String} {j : Joint α}
    (hj : m.joints.find? name = some j) (hbounded : j.IsBounded) : name ∈ names ↔ j.kind ≠ .fixed := by
  obtain ⟨n, hdegrees, hn⟩ := hbounded.degrees
  rw [(jointNames_spec h).2, ← hn]
  constructor
  · rintro ⟨j', n', hj', hdegrees', hpos⟩
    cases hj.symm.trans hj'
    cases hdegrees.symm.trans hdegrees'
    exact hpos
  · intro hpos
    exact ⟨j, n, hj, hdegrees, hpos⟩

/-- The defaults are the default values of the joints that take one, in order. -/
theorem defaultValues_spec (h : m.defaultValues = .ok values) : m.jointNames = .ok values.keys ∧
    ∀ name x, values.find? name = some x → ∃ j, m.joints.find? name = some j ∧ j.defaultValue = .ok x := by
  obtain ⟨names, hnames, h⟩ := bind_eq_ok.mp h
  obtain ⟨entries, hentries, h⟩ := bind_eq_ok.mp h
  obtain rfl := Except.ok.inj h
  have hkeys : entries.map Prod.fst = names := by
    refine (map_eq_of_mapM (fun name e he => ?_) hentries).trans names.map_id
    obtain ⟨_, -, he⟩ := bind_eq_ok.mp he
    obtain ⟨_, -, he⟩ := bind_eq_ok.mp he
    rw [← Except.ok.inj he, id]
  have hlist : (Table.ofList entries).entries = entries :=
    Table.entries_ofList (hkeys ▸ (jointNames_spec hnames).1)
  refine ⟨by rw [hnames, Table.keys, hlist, hkeys], fun name x hx => ?_⟩
  have hmem := hlist ▸ Table.mem_entries_of_lookup hx
  obtain ⟨_, -, he⟩ := exists_of_mem_mapM hentries hmem
  obtain ⟨j, hj, he⟩ := bind_eq_ok.mp he
  obtain ⟨_, hdefault, he⟩ := bind_eq_ok.mp he
  cases he
  exact ⟨j, joint_eq_ok.mp hj, Fault.lift_eq_ok.mp hdefault⟩

end RobotModel

namespace RobotState

variable {m : RobotModel α} {s : RobotState α} {values : Table String α} {names : List String}
  {past : List (Action α)} {name : String} {x : α}

/-! ## What is left behind -/

/-- The state that actions leave behind, the latest first. -/
def leftAfter (m : RobotModel α) (s : RobotState α) (past : List (Action α)) : RobotState α :=
  past.foldr (fun a s => s.left m a) s

omit [Scalar α] in
/-- The changes of joint values since all of them were set to their defaults, the latest first. -/
def setSince : List (Action α) → List (List (String × Given α))
  | [] => []
  | .setValues values :: past => values :: setSince past
  | .setDefaults :: _ => []
  | _ :: past => setSince past

/-- A change since then wrote the joint, which it did unless it failed before. -/
def WroteJoint (m : RobotModel α) (past : List (Action α)) (name : String) : Prop :=
  ∃ values ∈ setSince past, name ∈ (accepted m (Table.ofList values).entries).map Prod.fst

/-- A change since then asked for a value of the joint. -/
def Asked (past : List (Action α)) (name : String) (x : α) : Prop :=
  ∃ values ∈ setSince past, ∃ v, (Table.ofList values).find? name = some v ∧ v.toScalar = .ok x

/-- A value that is written was asked for, and moved within the limits of its joint. -/
theorem exists_of_mem_accepted {es : List (String × Given α)} (h : (name, x) ∈ accepted m es) :
    ∃ v j y kept event, (name, v) ∈ es ∧ m.joints.find? name = some j ∧ v.toScalar = .ok y ∧
      j.clamp (.real y) = .ok (kept, event) ∧ kept.toScalar = .ok x := by
  induction es with
  | nil => exact absurd h List.not_mem_nil
  | cons e rest ih =>
    obtain ⟨name', v⟩ := e
    rw [accepted] at h
    split at h
    · exact absurd h List.not_mem_nil
    · rename_i kept more hkept
      rcases List.mem_cons.mp h with h | h
      · cases h
        obtain ⟨j, hj, hkept⟩ := bind_eq_ok.mp hkept
        obtain ⟨y, hy, hkept⟩ := bind_eq_ok.mp hkept
        obtain ⟨⟨kept, event⟩, hclamp, hkept⟩ := bind_eq_ok.mp hkept
        obtain ⟨_, hx, hkept⟩ := bind_eq_ok.mp hkept
        cases hkept
        exact ⟨v, j, y, kept, event, List.mem_cons_self, RobotModel.joint_eq_ok.mp hj,
          Fault.lift_eq_ok.mp hy, Fault.lift_eq_ok.mp hclamp, Fault.lift_eq_ok.mp hx⟩
      · obtain ⟨v', j, y, kept, event, hmem, hrest⟩ := ih h
        exact ⟨v', j, y, kept, event, List.mem_cons_of_mem _ hmem, hrest⟩

theorem exists_joint_of_wroteJoint (h : WroteJoint m past name) : ∃ j, m.joints.find? name = some j := by
  obtain ⟨changes, -, hchanged⟩ := h
  obtain ⟨⟨_, x⟩, hx, rfl⟩ := List.mem_map.mp hchanged
  obtain ⟨_, j, _, _, _, -, hj, -⟩ := exists_of_mem_accepted hx
  exact ⟨j, hj⟩

theorem values_setValues (m : RobotModel α) (s : RobotState α) (values : List (String × Given α)) :
    (s.setValues m values).state.values = s.values.setAll (accepted m (Table.ofList values).entries) := by
  obtain ⟨events, e, hset⟩ | ⟨poses, events, -, hset⟩ := setValues_cases m s values
  · rw [hset]
  · rw [hset]

theorem values_setDefaults (h : m.defaultValues = .ok values) : (s.setDefaults m).state.values = values := by
  simp only [setDefaults, h, refresh]
  split <;> rfl

theorem values_left_override (link : String) (pose : PoseSource α) :
    (s.left m (.override link pose)).values = s.values := by
  rw [left]
  cases h : s.override m link pose with
  | error e => rfl
  | ok s' =>
    obtain ⟨_, -, h⟩ := bind_eq_ok.mp h
    obtain ⟨p, -, h⟩ := bind_eq_ok.mp h
    cases h
    rfl

theorem values_left_copy : (s.left m .copy).values = s.values := by
  rw [left]
  cases h : s.copy m with
  | error e => rfl
  | ok s' =>
    cases eq_of_copy h
    rfl

/-! ## The invariant -/

/-- The joints that take a value have theirs in order, and written joints follow. A value is within
    the limits of its joint, or is no number, as was asked for. -/
structure Holding (m : RobotModel α) (names : List String) (past : List (Action α))
    (values : Table String α) : Prop where
  keys : ∃ extra, values.keys = names ++ extra
  mem_keys : ∀ name, name ∈ values.keys ↔ name ∈ names ∨ WroteJoint m past name
  within : ∀ name x, values.find? name = some x → ∃ j, m.joints.find? name = some j ∧
    (j.Allows x ∨ j.kind ≠ .fixed ∧ Scalar.isNaN x = true ∧ Asked past name x)

section Invariant

variable [LawfulScalar α] (hzero : Scalar.le (0 : α) 0 = true)
  (hm : ∀ name j, m.joints.find? name = some j → j.IsBounded)

include hzero hm

theorem holding_defaults (hvalues : m.defaultValues = .ok values) (hpast : setSince past = []) :
    Holding m values.keys past values := by
  refine ⟨⟨[], (List.append_nil _).symm⟩, fun name => ?_, fun name x hx => ?_⟩
  · have hnone : ¬ WroteJoint m past name := by
      rintro ⟨values, hmem, -⟩
      rw [hpast] at hmem
      cases hmem
    exact ⟨.inl, fun h => h.resolve_right hnone⟩
  · obtain ⟨j, hj, hdefault⟩ := (RobotModel.defaultValues_spec hvalues).2 name x hx
    exact ⟨j, hj, .inl ((hm name j hj).allows_default hzero hdefault)⟩

theorem Holding.setValues (h : Holding m names past values) (changes : List (String × Given α)) :
    Holding m names (.setValues changes :: past)
      (values.setAll (accepted m (Table.ofList changes).entries)) := by
  have hnodup : ((accepted m (Table.ofList changes).entries).map Prod.fst).Nodup :=
    (Table.ofList changes).nodup.sublist (accepted_sublist m _)
  refine ⟨?_, fun name => ?_, fun name x hx => ?_⟩
  · obtain ⟨extra, hextra⟩ := h.keys
    obtain ⟨more, hmore⟩ := Table.exists_keys_setAll (accepted m (Table.ofList changes).entries) values
    exact ⟨extra ++ more, by rw [hmore, hextra, List.append_assoc]⟩
  · rw [Table.mem_keys_setAll, h.mem_keys, or_assoc]
    refine or_congr_right ?_
    show _ ↔ ∃ values ∈ changes :: setSince past, _
    rw [List.exists_mem_cons_iff, or_comm]
    rfl
  · rw [Table.find?_setAll hnodup, Option.or_eq_some_iff] at hx
    rcases hx with hx | ⟨-, hx⟩
    · obtain ⟨v, j, y, kept, event, hmem, hj, hy, hclamp, hkept⟩ :=
        exists_of_mem_accepted (Table.mem_entries_of_lookup hx)
      refine ⟨j, hj, ((hm name j hj).clamp hzero hclamp hkept).imp_right ?_⟩
      rintro ⟨hmoves, hnan, rfl⟩
      exact ⟨hmoves, hnan, changes, List.mem_cons_self, v, Table.find?_of_mem hmem, hy⟩
    · obtain ⟨j, hj, hin⟩ := h.within name x hx
      refine ⟨j, hj, hin.imp_right ?_⟩
      rintro ⟨hmoves, hnan, values, hmem, hasked⟩
      exact ⟨hmoves, hnan, values, List.mem_cons_of_mem _ hmem, hasked⟩

/-- Whatever is done, and whether it fails or not, the invariant holds. -/
theorem holding_leftAfter (hvalues : m.defaultValues = .ok values) (hs : s.values = values)
    (past : List (Action α)) : Holding m values.keys past (leftAfter m s past).values := by
  induction past with
  | nil =>
    rw [leftAfter, List.foldr_nil, hs]
    exact holding_defaults hzero hm hvalues rfl
  | cons a past ih =>
    rw [leftAfter, List.foldr_cons, ← leftAfter]
    cases a with
    | setValues changes =>
      rw [left, values_setValues]
      exact ih.setValues hzero hm changes
    | setDefaults =>
      rw [left, values_setDefaults hvalues]
      exact holding_defaults hzero hm hvalues rfl
    | override link pose =>
      rw [values_left_override]
      exact ⟨ih.keys, ih.mem_keys, ih.within⟩
    | copy =>
      rw [values_left_copy]
      exact ⟨ih.keys, ih.mem_keys, ih.within⟩

end Invariant

/-! ## A rail -/

section Rail

/-- A joint that shifts its child by at most one. -/
def shift : Joint Float := .linear (some "shift") ⟨0, 0, 1⟩ .origin (some (.real 0)) (some (.real 1))

/-- A base with a mount that is fixed to it and a carriage that shifts. -/
def rail : RobotModel Float :=
  let base := (RobotModel.empty .plain (some "arm")).addLink ⟨"base", none, none, none, [], none⟩
  let mounted := base.model.addLink ⟨"mount", some "base", none, none, [], none⟩
  (mounted.model.addLink ⟨"carriage", some "base", some shift, none, [], none⟩).model

theorem isBounded_rail (name : String) (j : Joint Float) (hj : rail.joints.find? name = some j) :
    j.IsBounded := by
  have hentries : rail.joints.entries =
      [("mount_joint", { Joint.fixed (some "mount_joint") .origin with
          parent := some "base", child := some "mount" }),
       ("shift", { shift with parent := some "base", child := some "carriage" })] := rfl
  have hmem := Table.mem_entries_of_lookup hj
  rw [hentries, List.mem_cons, List.mem_singleton] at hmem
  rcases hmem with hmem | hmem
  · cases hmem
    exact ⟨nofun, ⟨0, 0, rfl, rfl, by decide⟩, fun _ => ⟨rfl, rfl⟩⟩
  · cases hmem
    exact ⟨nofun, ⟨0, 1, rfl, rfl, by decide⟩, nofun⟩

/-- The mount is asked to move, and the carriage to where is no number. -/
def astray : List (Action Float) :=
  [.copy, .setValues [("shift", .real (0 / 0))], .setValues [("mount_joint", .real 1)]]

end Rail

/-! ## Names and values -/

/-- What a state holds after any changes of joint values, overrides and copies, if the limits of all
    joints are in order. First come the joints that take a value, in order, and then the fixed joints
    that were written since all joints were set to their defaults. A value is within the limits of its
    joint, unless the joint moves and a value that is no number was asked for since then. -/
theorem values_leftAfter {m : RobotModel Float} {root : PoseSource Float} {s : RobotState Float}
    (hm : ∀ name j, m.joints.find? name = some j → j.IsBounded) (h : atDefaults m root = .ok s)
    (past : List (Action Float)) :
    ∃ names extra, m.jointNames = .ok names ∧ (leftAfter m s past).values.keys = names ++ extra ∧
      (∀ name, name ∈ extra ↔
        (∃ j, m.joints.find? name = some j ∧ j.kind = .fixed) ∧ WroteJoint m past name) ∧
      ∀ name x, (leftAfter m s past).values.find? name = some x →
        ∃ j, m.joints.find? name = some j ∧
          (j.Allows x ∨ j.kind ≠ .fixed ∧ Scalar.isNaN x = true ∧ Asked past name x) := by
  obtain ⟨r, -, h⟩ := bind_eq_ok.mp h
  obtain ⟨values, hvalues, h⟩ := bind_eq_ok.mp h
  obtain ⟨poses, -, h⟩ := bind_eq_ok.mp h
  cases h
  have hholding := holding_leftAfter (s := ⟨r, values, poses⟩) (by decide) hm hvalues rfl past
  have hnames := (RobotModel.defaultValues_spec hvalues).1
  obtain ⟨extra, hextra⟩ := hholding.keys
  have hdisjoint : ∀ name ∈ extra, name ∉ values.keys := by
    have hnodup := (leftAfter m ⟨r, values, poses⟩ past).values.nodup_keys
    rw [hextra] at hnodup
    exact fun name hname hin => List.disjoint_of_nodup_append hnodup hin hname
  have hmem : ∀ name, name ∈ values.keys ∨ name ∈ extra ↔ name ∈ values.keys ∨ WroteJoint m past name := by
    intro name
    rw [← hholding.mem_keys, hextra, List.mem_append]
  refine ⟨values.keys, extra, hnames, hextra, fun name => ⟨fun hname => ?_, ?_⟩, hholding.within⟩
  · have hnot := hdisjoint name hname
    have hwrote := ((hmem name).mp (.inr hname)).resolve_left hnot
    obtain ⟨j, hj⟩ := exists_joint_of_wroteJoint hwrote
    refine ⟨⟨j, hj, ?_⟩, hwrote⟩
    by_contra hmoves
    exact hnot ((RobotModel.mem_jointNames hnames hj (hm name j hj)).mpr hmoves)
  · rintro ⟨⟨j, hj, hfixed⟩, hwrote⟩
    refine ((hmem name).mpr (.inr hwrote)).resolve_left fun hin => ?_
    exact (RobotModel.mem_jointNames hnames hj (hm name j hj)).mp hin hfixed

/-- The rail has a state at the default values. -/
theorem exists_atDefaults_rail {β : Type} {f : RobotState Float → β} {b : β}
    (h : (atDefaults rail .absent).toOption.map f = some b) :
    ∃ s, atDefaults rail .absent = .ok s ∧ f s = b := by
  cases hs : atDefaults rail .absent with
  | error e =>
    rw [hs] at h
    cases h
  | ok s =>
    rw [hs] at h
    exact ⟨s, rfl, Option.some.inj h⟩

/-- The mount has a value behind that of the carriage, which is no number. -/
theorem values_leftAfter_rail : ∃ s, atDefaults rail .absent = .ok s ∧
    ∃ names extra, rail.jointNames = .ok names ∧ (leftAfter rail s astray).values.keys = names ++ extra ∧
      (∀ name, name ∈ extra ↔
        (∃ j, rail.joints.find? name = some j ∧ j.kind = .fixed) ∧ WroteJoint rail astray name) ∧
      ∀ name x, (leftAfter rail s astray).values.find? name = some x →
        ∃ j, rail.joints.find? name = some j ∧
          (j.Allows x ∨ j.kind ≠ .fixed ∧ Scalar.isNaN x = true ∧ Asked astray name x) := by
  obtain ⟨s, hs, -⟩ := exists_atDefaults_rail (f := fun s => s.values.keys) (b := ["shift"]) (by decide +kernel)
  exact ⟨s, hs, values_leftAfter isBounded_rail hs astray⟩

/-- A fixed joint that is written has an entry, though it is none of the joints that take a value,
    and a value that is no number is kept, though it is not within the limits. -/
theorem exists_value_astray : ∃ s, (∀ name j, rail.joints.find? name = some j → j.IsBounded) ∧
    atDefaults rail .absent = .ok s ∧ rail.jointNames = .ok ["shift"] ∧
    (leftAfter rail s astray).values.keys = ["shift", "mount_joint"] ∧
    ∃ j x, rail.joints.find? "shift" = some j ∧ (leftAfter rail s astray).values.find? "shift" = some x ∧
      ¬ j.Allows x := by
  obtain ⟨s, hs, hleft⟩ := exists_atDefaults_rail
    (f := fun s => ((leftAfter rail s astray).values.keys,
      (leftAfter rail s astray).values.find? "shift" |>.map fun x => Scalar.le x x))
    (b := (["shift", "mount_joint"], some false)) (by decide +kernel)
  obtain ⟨hkeys, hvalue⟩ := Prod.mk.inj hleft
  obtain ⟨x, hx, hnan⟩ := Option.map_eq_some_iff.mp hvalue
  refine ⟨s, isBounded_rail, hs, rfl, hkeys, _, x, rfl, hx, ?_⟩
  rintro ⟨lo, hi, -, -, hlo, -⟩
  exact absurd (LawfulScalar.le_self_of_le hlo).2 (Bool.not_eq_true _ ▸ hnan)

end RobotState

end Clearance
