import Collision.Engine
import Collision.SphereGrid
import Collision.Proofs.Scalar.Order
import Collision.Proofs.Scalar.Double
import Collision.Proofs.Broad.Pairs
import Collision.Proofs.Broad.Frames
import Collision.Proofs.Broad.Isolation
import Collision.Proofs.Scalar.Exact
import Collision.Proofs.Space.Vector
import Collision.Proofs.Scalar.Checked
import Collision.Proofs.Space.Frame
import Collision.Proofs.Space.Axes
import Collision.Proofs.Box.Holds
import Collision.Proofs.Shape.Region
import Collision.Proofs.Box.Disjoint
import Collision.Proofs.Box.Fit
import Collision.Proofs.Tree.Build
import Collision.Proofs.Tree.Row
import Collision.Proofs.Tree.Arena
import Collision.Proofs.Tree.Overlap
import Collision.Proofs.Tree.Bounds
import Collision.Proofs.Shape.Support
import Collision.Proofs.Shape.Extent
import Collision.Proofs.Shape.Convex
import Collision.Proofs.Portal.Separation
import Collision.Proofs.Portal.Triangle
import Collision.Proofs.Shape.Closest
import Collision.Proofs.Shape.Division
import Collision.Proofs.Portal.Contact
import Collision.Proofs.Engine.Cycle
import Collision.Proofs.Engine.Edits
import Collision.Proofs.Engine.Run
import Collision.Proofs.Memory.Table
import Collision.Proofs.Memory.Age
import Collision.Proofs.Memory.Absorb
import Collision.Proofs.Memory.Identity
import Collision.Proofs.Scalar.Negation
import Collision.Proofs.Scalar.Mirror
import Collision.Proofs.Space.Opposed
import Collision.Proofs.Memory.Merge
import Collision.Proofs.Memory.Continuity
import Collision.Proofs.Memory.Eviction
import Collision.Proofs.Memory.Capacity
import Collision.Proofs.Memory.Ownership
import Collision.Proofs.Memory.Reversal
import Collision.Proofs.Memory.Interleaving
import Collision.Proofs.Grid.Cells
import Collision.Proofs.Grid.Queries
import Collision.Proofs.Portal.Soundness
import Collision.Proofs.Shape.Interior
import Collision.Proofs.Pair.SeparatingAxis
import Collision.Proofs.Pair.FlatFaces
import Collision.Proofs.Pair.Resolution
import Collision.Proofs.Pair.Round
import Collision.Proofs.Pair.Capsules
import Collision.Proofs.Pair.HalfSpace
import Collision.Proofs.Pair.ClosedForms
import Collision.Proofs.Pair.Exchange
import Collision.Proofs.Portal.Enclosure
import Collision.Proofs.Portal.Rounds
import Collision.Proofs.Pair.Agreement
import Collision.Proofs.Engine.Calls
import Collision.Proofs.Engine.Handles
import Collision.Proofs.Engine.Breaks
import Collision.Proofs.Box.Symmetry
import Collision.Proofs.Pair.Rebase
import Collision.Proofs.Pair.ThinTriangles
import Collision.Proofs.Pair.SphereTriangle
import Collision.Proofs.Scalar.Sorting
import Collision.Proofs.Pair.Limit
import Collision.Proofs.Space.RightHanded
import Collision.Proofs.Box.Methods
import Collision.Proofs.Grid.Layout
import Collision.Proofs.Shape.Corners
import Collision.Proofs.Shape.Section
import Collision.Proofs.Pair.BoxSection
import Collision.Proofs.Shape.HeightField
import Collision.Proofs.Shape.Moments
import Collision.Proofs.Space.Form
import Collision.Proofs.Space.Motion
import Collision.Proofs.Pair.CapsuleOrder
import Collision.Proofs.Scalar.Spreading
import Collision.Proofs.Space.Nowhere
import Collision.Proofs.Portal.Nowhere
import Collision.Proofs.Pair.Nowhere
import Collision.Proofs.Engine.Nowhere
import Collision.Proofs.Portal.Sides
import Collision.Proofs.Pair.Thickness
import Collision.Proofs.Pair.Midway
