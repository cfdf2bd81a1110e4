import Clearance.Collision.PairKey
import Clearance.Table
import Clearance.Text.Quoted

/-!
# Allowed collisions

A symmetric table of the pairs of names that may collide. What is written for a pair counts; a pair
for which nothing is written takes the default if both names are known, and may not collide
otherwise.

* `AllowedCollisions.get`: whether a pair may collide.
* `AllowedCollisions.get_comm`: the order of the names does not matter.
* `AllowedCollisions.sorted`: all that is written, in the order of the names.
-/

namespace Clearance

/-- Known names with a default for their pairs, and what is written for single pairs
    (`AllowedCollisionMatrix`). -/
structure AllowedCollisions where
  known : List String
  default : Bool
  entries : Table (String × String) Bool

namespace AllowedCollisions

/-- A list of names with one more, unless it is there already. -/
def insertName (known : List String) (name : String) : List String :=
  if known.contains name then known else known ++ [name]

/-- The table of known names in which nothing is written. -/
def make (names : List String) (default : Bool) : AllowedCollisions :=
  ⟨names.foldl insertName [], default, Table.empty⟩

/-- The table with one more known name (`add_name`). -/
def addName (m : AllowedCollisions) (name : String) : AllowedCollisions :=
  { m with known := insertName m.known name }

/-- Writes for a pair of names whether it may collide (`set_entry`). -/
def set (m : AllowedCollisions) (a b : String) (allowed : Bool) : AllowedCollisions :=
  { m with entries := m.entries.set (pairKey a b) allowed }

/-- Writes for a name with each of others, or with all known names (`set_entries`). The name itself
    is passed over. -/
def setAll (m : AllowedCollisions) (name : String) (others : Option (List String)) (allowed : Bool) :
    AllowedCollisions :=
  ((others.getD m.known).filter (· ≠ name)).foldl (fun m other => m.set name other allowed) m

/-- Takes back what is written for a pair (`remove_entry`). -/
def remove (m : AllowedCollisions) (a b : String) : AllowedCollisions :=
  { m with entries := m.entries.erase (pairKey a b) }

/-- Whether something is written for a pair (`has_entry`). -/
def has (m : AllowedCollisions) (a b : String) : Bool := m.entries.contains (pairKey a b)

/-- Whether a pair may collide (`get_entry`). -/
def get (m : AllowedCollisions) (a b : String) : Bool :=
  match m.entries.find? (pairKey a b) with
  | some allowed => allowed
  | none => m.known.contains a && m.known.contains b && m.default

/-- Whether a name is known or something is written for it. -/
def contains (m : AllowedCollisions) (name : String) : Bool :=
  m.known.contains name || m.entries.keys.any fun (a, b) => a == name || b == name

/-- The number of pairs for which something is written. -/
def size (m : AllowedCollisions) : Nat := m.entries.size

/-- Whether one pair of names comes before another or is the same. -/
def pairLe (p q : String × String) : Bool := decide (p.1 < q.1) || (p.1 == q.1 && decide (p.2 ≤ q.2))

/-- All that is written, in the order of the names (`entries`). -/
def sorted (m : AllowedCollisions) : List ((String × String) × Bool) :=
  m.entries.entries.mergeSort fun e f => pairLe e.1 f.1

/-- The description of a table. -/
def written (m : AllowedCollisions) : String :=
  "<AllowedCollisionMatrix default=" ++ Text.truth m.default ++ " names=" ++ toString m.known.length ++
    " entries=" ++ toString m.size ++ ">"

/-- A pair may collide in whichever order its names are given. -/
theorem get_comm (m : AllowedCollisions) (a b : String) : m.get a b = m.get b a := by
  unfold get
  rw [pairKey_comm a b, Bool.and_comm (m.known.contains a)]

theorem has_comm (m : AllowedCollisions) (a b : String) : m.has a b = m.has b a := by
  unfold has
  rw [pairKey_comm a b]

end AllowedCollisions

end Clearance
