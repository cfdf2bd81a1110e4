import Mathlib.Data.Nat.ModEq
import Mathlib.Data.Set.Function
import Mathlib.Tactic.SplitIfs
import Clearance.Input.ShapeReading
import Clearance.Proofs.Outcomes

/-!
# What the bytes of a mesh tell

A mesh is recognised by a digest of bytes: those of its coordinates, and then those of its faces,
eight bytes for each number. Where the coordinates end is not written, so the bytes tell the numbers
of a mesh and their order, but not which of them are coordinates.

* `map_eq_of_flatMap_eq`: what is written in pieces of one length can be read back.
* `MessageDigest.littleEndian_injective`: eight bytes tell a word.
* `Mesh.words`, `Mesh.words_eq_of_content`: the bytes of a mesh tell its words.
* `Mesh.IsStored`, `Mesh.isStored_of_read`: the faces of a mesh that was read are machine words.
* `Mesh.same_arrays_iff`: two meshes with the same digest have the same vertices and faces if and
  only if they have equally many vertices.
* `Mesh.exists_same_digest`: a tetrahedron and a pair of them with the same digest.
-/

namespace Clearance

/-! ## Pieces of one length -/

/-- Lists of which each member was written in a piece of one length can be read back piece by
    piece. -/
theorem map_eq_of_flatMap_eq {α β γ : Type} {f : α → List β} {g : α → γ} (width : Nat)
    (hwidth : 0 < width) (hlength : ∀ x, (f x).length = width) {xs ys : List α}
    (hf : ∀ x ∈ xs, ∀ y ∈ ys, f x = f y → g x = g y) (h : xs.flatMap f = ys.flatMap f) :
    xs.map g = ys.map g := by
  have hcons : ∀ (x : α) (xs : List α), (x :: xs).flatMap f ≠ [] := by
    intro x xs hnil
    have hzero := congrArg List.length hnil
    rw [List.flatMap_cons, List.length_append, hlength, List.length_nil] at hzero
    omega
  induction xs generalizing ys with
  | nil =>
    cases ys with
    | nil => rfl
    | cons y ys => exact absurd h.symm (hcons y ys)
  | cons x xs ih =>
    cases ys with
    | nil => exact absurd h (hcons x xs)
    | cons y ys =>
      rw [List.flatMap_cons, List.flatMap_cons] at h
      obtain ⟨hfirst, hrest⟩ := List.append_inj h ((hlength x).trans (hlength y).symm)
      have hf' : ∀ x ∈ xs, ∀ y ∈ ys, f x = f y → g x = g y := fun a ha b hb =>
        hf a (List.mem_cons_of_mem _ ha) b (List.mem_cons_of_mem _ hb)
      have ih := ih hf' hrest
      rw [List.map_cons, List.map_cons, ih, hf x List.mem_cons_self y List.mem_cons_self hfirst]

/-! ## Bytes -/

namespace MessageDigest

theorem ofLittleEndian_littleEndian (count n : Nat) :
    ofLittleEndian (littleEndian count n) = n % 256 ^ count := by
  induction count generalizing n with
  | zero => rw [littleEndian, ofLittleEndian, pow_zero, Nat.mod_one]
  | succ count ih =>
    have hbyte : (UInt8.ofNat (n % 256)).toNat = n % 256 := by
      rw [UInt8.toNat_ofNat']
      exact Nat.mod_eq_of_lt (Nat.mod_lt n (by decide))
    rw [littleEndian, ofLittleEndian, ih, hbyte, pow_succ', Nat.mod_mul]

/-- Eight bytes tell a word. -/
theorem littleEndian_injective {m n : Nat} (hm : m < 2 ^ 64) (hn : n < 2 ^ 64)
    (h : littleEndian 8 m = littleEndian 8 n) : m = n := by
  have hvalue := congrArg ofLittleEndian h
  rw [ofLittleEndian_littleEndian, ofLittleEndian_littleEndian] at hvalue
  omega

end MessageDigest

/-! ## Words -/

namespace Mesh

variable {α : Type} [Scalar α] {m n : Mesh α}

/-- The words that store the coordinates of the vertices. -/
def vertexWords (m : Mesh α) : List Nat :=
  m.vertices.toList.flatMap fun v => v.toList.map fun x => (Scalar.bits x).toNat

/-- The words that store the faces. -/
def faceWords (m : Mesh α) : List Nat :=
  m.faces.flatMap fun f => [f.a, f.b, f.c].map fun i : Int => (i % (Nat.pow 2 64 : Nat)).toNat

/-- All words of a mesh. -/
def words (m : Mesh α) : List Nat := m.vertexWords ++ m.faceWords

theorem content_eq (m : Mesh α) : m.content = m.words.flatMap (MessageDigest.littleEndian 8) := by
  simp only [content, words, vertexWords, faceWords, List.flatMap_append, List.flatMap_assoc,
    List.flatMap_map]
  rfl

theorem lt_of_mem_words {w : Nat} (h : w ∈ m.words) : w < 2 ^ 64 := by
  rcases List.mem_append.mp h with h | h
  · obtain ⟨v, -, h⟩ := List.mem_flatMap.mp h
    obtain ⟨x, -, rfl⟩ := List.mem_map.mp h
    exact UInt64.toNat_lt _
  · obtain ⟨f, -, h⟩ := List.mem_flatMap.mp h
    obtain ⟨i, -, rfl⟩ := List.mem_map.mp h
    have hpow : Nat.pow 2 64 = 18446744073709551616 := rfl
    rw [hpow]
    omega

/-- The bytes of a mesh tell its words. -/
theorem words_eq_of_content (h : m.content = n.content) : m.words = n.words := by
  rw [content_eq, content_eq] at h
  have hword : ∀ v ∈ m.words, ∀ w ∈ n.words,
      MessageDigest.littleEndian 8 v = MessageDigest.littleEndian 8 w → id v = id w :=
    fun _ hv _ hw => MessageDigest.littleEndian_injective (lt_of_mem_words hv) (lt_of_mem_words hw)
  have hid := map_eq_of_flatMap_eq 8 (by decide) (MessageDigest.length_littleEndian 8) hword h
  rwa [List.map_id, List.map_id] at hid

theorem length_vertexWords (m : Mesh α) : m.vertexWords.length = 3 * m.vertices.size := by
  simp [vertexWords, Vec3.toList, List.length_flatMap, mul_comm]

/-- The words of vertices tell their coordinates bit for bit. -/
theorem vertices_eq_of_words (h : m.vertexWords = n.vertexWords) :
    m.vertices.map (Vec3.map Scalar.bits) = n.vertices.map (Vec3.map Scalar.bits) := by
  apply Array.toList_inj.mp
  rw [Array.toList_map, Array.toList_map]
  refine map_eq_of_flatMap_eq 3 (by decide) (fun _ => rfl) (fun u _ v _ huv => ?_) h
  simp only [Vec3.toList, List.map_cons, List.map_nil, List.cons.injEq, UInt64.toNat_inj] at huv
  exact Vec3.ext huv.1 huv.2.1 huv.2.2.1

omit [Scalar α] in
theorem length_faceWords (m : Mesh α) : m.faceWords.length = 3 * m.faces.length := by
  simp [faceWords, mul_comm]

/-- An integer that a machine word with a sign holds. -/
def IsWord (n : Int) : Prop := -(2 ^ 63) ≤ n ∧ n < 2 ^ 63

/-- The faces of a mesh are stored in machine words. -/
def IsStored (m : Mesh α) : Prop := ∀ f ∈ m.faces, IsWord f.a ∧ IsWord f.b ∧ IsWord f.c

omit [Scalar α] in
/-- The words of stored faces tell the faces. -/
theorem faces_eq_of_words (hm : m.IsStored) (hn : n.IsStored) (h : m.faceWords = n.faceWords) :
    m.faces = n.faces := by
  have word : ∀ {i j : Int}, IsWord i → IsWord j →
      (i % (Nat.pow 2 64 : Nat)).toNat = (j % (Nat.pow 2 64 : Nat)).toNat → i = j := by
    intro i j hi hj hij
    have hpow : Nat.pow 2 64 = 18446744073709551616 := rfl
    rw [hpow] at hij
    unfold IsWord at hi hj
    omega
  have hid := map_eq_of_flatMap_eq (g := id) 3 (by decide) (fun _ => rfl)
    (fun f hf g hg hfg => ?_) h
  · rwa [List.map_id, List.map_id] at hid
  · obtain ⟨ha, hb, hc⟩ := hm f hf
    obtain ⟨ha', hb', hc'⟩ := hn g hg
    simp only [List.map_cons, List.map_nil, List.cons.injEq] at hfg
    have hfa := word ha ha' hfg.1
    have hfb := word hb hb' hfg.2.1
    have hfc := word hc hc' hfg.2.2.1
    obtain ⟨a, b, c⟩ := f
    obtain ⟨a', b', c'⟩ := g
    cases hfa
    cases hfb
    cases hfc
    rfl

end Mesh

/-! ## Reading -/

namespace Mesh

open Read

theorem isWord_of_word {n k : Int} (h : word n = .ok k) : IsWord k := by
  unfold word at h
  split at h
  case isTrue hn =>
    obtain rfl := Except.ok.inj h
    simpa [IsWord] using hn
  case isFalse => cases h

theorem isWord_of_facePlace {v : Value} {k : Int} (h : facePlace v = .ok k) : IsWord k := by
  cases v with
  | int n => exact isWord_of_word h
  | bool b =>
    obtain rfl := Except.ok.inj h
    cases b <;> simp [IsWord]
  | real x =>
    simp only [facePlace] at h
    split_ifs at h
    · exact isWord_of_word h
    · exact isWord_of_word h
  | text s =>
    simp only [facePlace] at h
    cases hs : Reading.int? s with
    | some n =>
      rw [hs] at h
      exact isWord_of_word h
    | none =>
      rw [hs] at h
      cases h
  | _ => cases h

theorem mem_of_mem_faceRows {places : List Int} {f : Face} (h : f ∈ faceRows places) :
    f.a ∈ places ∧ f.b ∈ places ∧ f.c ∈ places := by
  fun_induction faceRows places with
  | case1 a b c rest ih =>
    rcases List.mem_cons.mp h with rfl | h
    · simp
    · have := ih h
      simp [this]
  | case2 => cases h

/-- The faces of a mesh that was read are stored in machine words. -/
theorem isStored_of_read {vertices faces pitch : Value} {m : Mesh Float}
    (h : mesh vertices faces pitch = .ok (.mesh m)) : m.IsStored := by
  obtain ⟨vs, -, h⟩ := bind_eq_ok.mp h
  cases hshape : faces.shape? with
  | none =>
    rw [hshape] at h
    cases h
  | some shape =>
    rw [hshape] at h
    obtain ⟨_, hpure, h⟩ := bind_eq_ok.mp h
    obtain rfl := Except.ok.inj hpure
    obtain ⟨places, hplaces, h⟩ := bind_eq_ok.mp h
    dsimp only at h
    split at h
    case h_2 => cases h
    case h_1 =>
      split at h
      case h_2 => cases h
      case h_1 =>
        obtain ⟨size, -, h⟩ := bind_eq_ok.mp h
        obtain rfl := Shape.mesh.inj (Except.ok.inj h)
        intro f hf
        obtain ⟨ha, hb, hc⟩ := mem_of_mem_faceRows hf
        have word : ∀ k ∈ places, IsWord k := by
          intro k hk
          obtain ⟨v, -, hv⟩ := exists_of_mem_mapM (Fault.lift_eq_ok.mp hplaces) hk
          exact isWord_of_facePlace hv
        exact ⟨word _ ha, word _ hb, word _ hc⟩

/-! ## Digests -/

/-- What the digest of meshes that were read tells, where the digest MD5 tells their bytes apart.
    The words of two meshes with the same digest are the same, so they have equally many vertices
    and faces together. The vertices are the same bit for bit, and the faces are the same, if and
    only if there are equally many vertices. -/
theorem same_arrays_iff {vertices faces pitch vertices' faces' pitch' : Value} {m n : Mesh Float}
    (hm : mesh vertices faces pitch = .ok (.mesh m))
    (hn : mesh vertices' faces' pitch' = .ok (.mesh n))
    (hmd5 : Set.InjOn MessageDigest.md5 {m.content, n.content})
    (h : (Shape.mesh m).digest.same (Shape.mesh n).digest = true) :
    m.vertices.size + m.faces.length = n.vertices.size + n.faces.length ∧
      (m.vertices.map (Vec3.map Scalar.bits) = n.vertices.map (Vec3.map Scalar.bits) ∧
          m.faces = n.faces ↔
        m.vertices.size = n.vertices.size) := by
  rw [Shape.digest, Shape.digest, Digest.same, Bool.and_eq_true_iff, beq_iff_eq] at h
  have hcontent := hmd5 (Set.mem_insert _ _) (Set.mem_insert_of_mem _ rfl) h.1
  have hwords := words_eq_of_content hcontent
  have htotal := congrArg List.length hwords
  rw [words, words, List.length_append, List.length_append, length_vertexWords, length_faceWords,
    length_vertexWords, length_faceWords] at htotal
  refine ⟨by omega, fun hsame => ?_, fun hsize => ?_⟩
  · have hsize := congrArg Array.size hsame.1
    rwa [Array.size_map, Array.size_map] at hsize
  · have hlength : m.vertexWords.length = n.vertexWords.length := by
      rw [length_vertexWords, length_vertexWords, hsize]
    obtain ⟨hvertices, hfaces⟩ := List.append_inj hwords hlength
    exact ⟨vertices_eq_of_words hvertices,
      faces_eq_of_words (isStored_of_read hm) (isStored_of_read hn) hfaces⟩

section Tetrahedra

def row (x y z : Float) : Value := .list [.real x, .real y, .real z]

def faceRow (a b c : Int) : Value := .list [.int a, .int b, .int c]

/-- The corners of two tetrahedra that lie apart. -/
def cornerRows : List Value :=
  [row 0 0 0, row 1 0 0, row 0 1 0, row 0 0 1, row 3 0 0, row 4 0 0, row 3 1 0, row 3 0 1]

/-- The faces of the first tetrahedron. -/
def nearRows : List Value := [faceRow 0 2 1, faceRow 0 1 3, faceRow 0 3 2, faceRow 1 2 3]

/-- The faces of the second tetrahedron. -/
def farRows : List Value := [faceRow 4 6 5, faceRow 4 5 7, faceRow 4 7 6, faceRow 5 6 7]

/-- Points next to the origin. The bits of their coordinates are the places in the faces of the
    second tetrahedron. -/
def tinyRows : List Value :=
  [row 2e-323 3e-323 2.5e-323, row 2e-323 2.5e-323 3.5e-323, row 2e-323 3.5e-323 3e-323,
    row 2.5e-323 3e-323 3.5e-323]

/-- Two tetrahedra. -/
def tetrahedra : Mesh Float :=
  ⟨#[⟨0, 0, 0⟩, ⟨1, 0, 0⟩, ⟨0, 1, 0⟩, ⟨0, 0, 1⟩, ⟨3, 0, 0⟩, ⟨4, 0, 0⟩, ⟨3, 1, 0⟩, ⟨3, 0, 1⟩],
    [⟨4, 6, 5⟩, ⟨4, 5, 7⟩, ⟨4, 7, 6⟩, ⟨5, 6, 7⟩, ⟨0, 2, 1⟩, ⟨0, 1, 3⟩, ⟨0, 3, 2⟩, ⟨1, 2, 3⟩],
    some 1⟩

/-- One tetrahedron, with points that no face uses. -/
def tetrahedron : Mesh Float :=
  ⟨#[⟨0, 0, 0⟩, ⟨1, 0, 0⟩, ⟨0, 1, 0⟩, ⟨0, 0, 1⟩, ⟨3, 0, 0⟩, ⟨4, 0, 0⟩, ⟨3, 1, 0⟩, ⟨3, 0, 1⟩,
      ⟨2e-323, 3e-323, 2.5e-323⟩, ⟨2e-323, 2.5e-323, 3.5e-323⟩, ⟨2e-323, 3.5e-323, 3e-323⟩,
      ⟨2.5e-323, 3e-323, 3.5e-323⟩],
    [⟨0, 2, 1⟩, ⟨0, 1, 3⟩, ⟨0, 3, 2⟩, ⟨1, 2, 3⟩], some 1⟩

theorem read_tetrahedra :
    mesh (.list cornerRows) (.list (farRows ++ nearRows)) (.real 1) = .ok (.mesh tetrahedra) := rfl

theorem read_tetrahedron :
    mesh (.list (cornerRows ++ tinyRows)) (.list nearRows) (.real 1) =
      .ok (.mesh tetrahedron) := rfl

/-- The faces of the first tetrahedron, with truth values for the places zero and one. -/
def nearRowsOfBools : List Value :=
  .list [.bool false, .int 2, .bool true] :: nearRows.tail

/-- Two tetrahedra whose places are written in two ways, with a pitch that is rounded before it is
    compared: they have the same vertices and the same faces. -/
theorem same_arrays_iff_tetrahedra :
    ∃ n : Mesh Float,
      mesh (.list cornerRows) (.list (farRows ++ nearRowsOfBools)) (.real 1.0000000000000002) =
        .ok (.mesh n) ∧
      (Shape.mesh tetrahedra).digest.same (Shape.mesh n).digest = true ∧
      tetrahedra.vertices.map (Vec3.map Scalar.bits) = n.vertices.map (Vec3.map Scalar.bits) ∧
      tetrahedra.faces = n.faces := by
  let n : Mesh Float := { tetrahedra with pitch := some 1.0000000000000002 }
  have hread : mesh (.list cornerRows) (.list (farRows ++ nearRowsOfBools))
      (.real 1.0000000000000002) = .ok (.mesh n) := rfl
  have hsame : (Shape.mesh tetrahedra).digest.same (Shape.mesh n).digest = true := by
    have hpitch : Scalar.eq (Scalar.roundPlaces keyPlaces (1 : Float))
        (Scalar.roundPlaces keyPlaces 1.0000000000000002) = true := by decide +kernel
    rw [Shape.digest, Shape.digest, Digest.same, Bool.and_eq_true_iff, beq_iff_eq]
    exact ⟨rfl, hpitch⟩
  have hmd5 : Set.InjOn MessageDigest.md5 {tetrahedra.content, n.content} := by
    rw [show n.content = tetrahedra.content from rfl, Set.pair_eq_singleton]
    exact Set.injOn_singleton _ _
  exact ⟨n, hread, hsame, (same_arrays_iff read_tetrahedra hread hmd5 hsame).2.mpr rfl⟩

/-- The digest does not tell a tetrahedron with some points beside it from two tetrahedra: the bytes
    of the points are those of the faces of the second one. -/
theorem exists_same_digest : ∃ (vertices faces pitch vertices' faces' pitch' : Value)
    (m n : Mesh Float), mesh vertices faces pitch = .ok (.mesh m) ∧
      mesh vertices' faces' pitch' = .ok (.mesh n) ∧
      Set.InjOn MessageDigest.md5 {m.content, n.content} ∧
      (Shape.mesh m).digest.same (Shape.mesh n).digest = true ∧
      m.vertices.map (Vec3.map Scalar.bits) ≠ n.vertices.map (Vec3.map Scalar.bits) ∧
      m.faces ≠ n.faces := by
  have hcontent : tetrahedron.content = tetrahedra.content := by decide +kernel
  have hpitch : Scalar.eq (Scalar.roundPlaces keyPlaces (1 : Float))
      (Scalar.roundPlaces keyPlaces 1) = true := by decide +kernel
  refine ⟨_, _, _, _, _, _, tetrahedron, tetrahedra, read_tetrahedron, read_tetrahedra, ?_, ?_, ?_,
    by decide⟩
  · rw [hcontent, Set.pair_eq_singleton]
    exact Set.injOn_singleton _ _
  · rw [Shape.digest, Shape.digest, Digest.same, Bool.and_eq_true_iff, beq_iff_eq, hcontent]
    exact ⟨rfl, hpitch⟩
  · intro h
    have hsize := congrArg Array.size h
    rw [Array.size_map, Array.size_map] at hsize
    cases hsize

end Tetrahedra

end Mesh

end Clearance
