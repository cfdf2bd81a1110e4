import Clearance.Error

/-!
# Settings

The grid parameters that are used where a caller gives none. The resolution can be set by a text,
which is read only when it is needed.

* `Settings.defaultResolution`: the resolution, or why the text does not give one.
-/

namespace Clearance

/-- The text that sets the resolution, with the number it spells if it spells one. -/
structure Settings (α : Type) where
  resolutionText : Option (String × Option α)
  deriving Repr, DecidableEq

namespace Settings

variable {α : Type} [Scalar α]

/-- Settings that nothing changes. -/
def standard : Settings α := ⟨none⟩

/-- The resolution without a setting. -/
def standardResolution : α := 0.01

/-- How many free voxels surround a body (`get_default_padding_voxels`). -/
def paddingVoxels : Nat := 4

/-- The greatest number of voxels along an axis (`get_default_max_dims`). -/
def maxDims : Nat := 128

/-- The resolution where none is given: a positive number (`get_default_resolution`). -/
def defaultResolution (s : Settings α) : Except (Error α) α :=
  match s.resolutionText with
  | none => .ok standardResolution
  | some (text, none) => .error (.settingNotANumber text)
  | some (text, some r) => if Scalar.lt 0 r then .ok r else .error (.settingNotPositive text)

end Settings

end Clearance
