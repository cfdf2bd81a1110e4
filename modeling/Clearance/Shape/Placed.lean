import Clearance.Shape.Basic

/-!
# Placed shapes

A shape together with its pose in the frame of the body that it is a part of.
-/

namespace Clearance

/-- A shape at a checked pose. -/
structure PlacedShape (α : Type) where
  shape : Shape α
  pose : Pose α

end Clearance
