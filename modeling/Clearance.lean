import Clearance.Error.Family
import Clearance.Error.Message
import Clearance.Event.Message
import Clearance.Input.JointReading
import Clearance.Input.RequestReading
import Clearance.Package
import Clearance.Robot.DualArm
import Clearance.Session.Check
import Clearance.Proofs.Collision.FailedChanges
import Clearance.Proofs.Collision.Groups
import Clearance.Proofs.Robot.Tree
import Clearance.Proofs.Robot.Totality
import Clearance.Proofs.Collision.MovedChecks
import Clearance.Proofs.Collision.Permits
import Clearance.Proofs.Collision.Workshop
import Clearance.Proofs.Field.Requests
import Clearance.Proofs.Field.Separation
import Clearance.Proofs.Field.Transparency
import Clearance.Proofs.Mesh.Content
import Clearance.Proofs.Field.Lifetime
import Clearance.Proofs.Field.Border
import Clearance.Proofs.Collision.Normals
import Clearance.Proofs.Collision.PermitHistory
import Clearance.Proofs.Stores
import Clearance.Proofs.Collision.Ownership
import Clearance.Proofs.Shape.Beyond
import Clearance.Proofs.Field.Steady
import Clearance.Proofs.Shape.SignedDistance
import Clearance.Proofs.Field.Sizing
import Clearance.Proofs.Field.VoxelOrder
import Clearance.Proofs.Shape.Coverage
import Clearance.Proofs.Geometry.InPlace
import Clearance.Proofs.Geometry.Acceptance
import Clearance.Proofs.Robot.FailedAdditions
import Clearance.Proofs.Collision.Verdicts
