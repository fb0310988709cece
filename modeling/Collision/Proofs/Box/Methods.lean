import Collision.Box.Fit
import Collision.Box.Fitted
import Collision.Proofs.Space.RightHanded

/-!
# What fitting methods choose

Whichever method is used, a fitted box is the tight box of its own axes, and these are a right-handed
orthonormal frame. This does not rest on the search for eigenvectors: `OrientedBox.fittedBy` fits
with any search, which may return any three vectors, and `OrientedBox.fitted` is the case of
`symmetricEigen`. No shapes, shapes without a surface and points on one line are no exceptions,
because every direction that cannot be told is completed to a frame.

The methods that try several frames keep a box of least volume
(`OrientedBox.smallestEnclosing_volume_le`).

* `OrientedBox.fitted_along_frames` says this of all methods, of points and of triangles.
-/

set_option autoImplicit false
set_option relaxedAutoImplicit false

namespace Collision

section Searches

variable {α : Type} [Scalar α]

/-- A search for the eigenvalues and eigenvectors of a symmetric matrix. -/
abbrev EigenSearch (α : Type) := Mat3 α → Vec3 α × Mat3 α

/-- The principal axes that a search finds. -/
def principalAxesBy (search : EigenSearch α) (m : Mat3 α) : Mat3 α :=
  if m.isFinite then frameOfEigen (search m).1 (search m).2 else Mat3.identity

namespace OrientedBox

/-- The principal axes of the points that span shapes, by any search. -/
def pointAxesBy (search : EigenSearch α) (shapes : List (Shape α)) : Mat3 α :=
  principalAxesBy search (pointCovariance (shapes.flatMap fun s ↦ s.hullPoints Pose.identity))

/-- The principal axes of a matrix made of the surface covariance, by any search; those of the
points when there is no surface. -/
def surfaceAxesBy (search : EigenSearch α) (shapes : List (Shape α))
    (ofCovariance : Mat3 α → Mat3 α) : Mat3 α :=
  match (SurfaceMoments.ofShapes shapes).covariance? with
  | some c => principalAxesBy search (ofCovariance c)
  | none => pointAxesBy search shapes

/-- The box around shapes by a fitting method and any search. -/
def fittedBy (search : EigenSearch α) (method : FitMethod) (shapes : List (Shape α)) :
    OrientedBox α :=
  match method with
  | .covariance => enclosing (pointAxesBy search shapes) shapes
  | .surfaceCovariance => enclosing (surfaceAxesBy search shapes id) shapes
  | .inertia => enclosing (surfaceAxesBy search shapes inertiaOfCovariance) shapes
  | .calipers rotations => byCalipers (pointAxesBy search shapes) rotations shapes
  | .angleGrid rotations => byAngleGrid rotations shapes

/-- The box around points along the principal axes that a search finds. -/
def fittedToPointsBy (search : EigenSearch α) (points : List (Vec3 α)) : OrientedBox α :=
  aroundPoints (principalAxesBy search (pointCovariance points)) points

theorem fittedBy_symmetricEigen (method : FitMethod) (shapes : List (Shape α)) :
    fittedBy symmetricEigen method shapes = fitted method shapes := by
  cases method <;> rfl

theorem fittedToPointsBy_symmetricEigen (points : List (Vec3 α)) :
    fittedToPointsBy symmetricEigen points = fittedToPoints points := rfl

/-- The tight box of given axes has these axes. -/
theorem enclosing_axes (axes : Mat3 α) (shapes : List (Shape α)) :
    (enclosing axes shapes).axes = axes := by
  unfold enclosing
  split_ifs <;> rfl

theorem aroundPoints_axes (axes : Mat3 α) (points : List (Vec3 α)) :
    (aroundPoints axes points).axes = axes := by
  cases points <;> rfl

end OrientedBox

end Searches

theorem principalAxesBy_rightHanded (search : EigenSearch ℝ) (m : Mat3 ℝ) :
    (principalAxesBy search m).RightHanded := by
  unfold principalAxesBy
  split_ifs
  · exact frameOfEigen_rightHanded _ _
  · exact Mat3.identity_rightHanded

namespace OrientedBox

/-! ### Searches among frames -/

section Smallest

variable (first : Mat3 ℝ) (others : List (Mat3 ℝ)) (shapes : List (Shape ℝ))

/-- The smallest of several boxes is one of them, and none has less volume. -/
theorem smallestEnclosing_spec : ∃ axes ∈ first :: others,
    smallestEnclosing first others shapes = enclosing axes shapes ∧
      ∀ other ∈ first :: others, (enclosing axes shapes).volume ≤ (enclosing other shapes).volume := by
  unfold smallestEnclosing
  induction others generalizing first with
  | nil =>
    exact ⟨first, List.mem_cons_self, rfl, List.forall_mem_singleton.mpr (le_refl _)⟩
  | cons next rest ih =>
    rw [List.foldl_cons, smaller]
    split_ifs with hless
    · obtain ⟨axes, hmem, heq, hleast⟩ := ih next
      refine ⟨axes, .tail first hmem, heq, List.forall_mem_cons.mpr ⟨?_, hleast⟩⟩
      exact (hleast next List.mem_cons_self).trans hless.le
    · obtain ⟨axes, hmem, heq, hleast⟩ := ih first
      have hfirst := hleast first List.mem_cons_self
      refine ⟨axes, ?_, heq, List.forall_mem_cons.mpr ⟨hfirst, List.forall_mem_cons.mpr
        ⟨hfirst.trans (not_lt.mp hless), fun other hother ↦ hleast other (.tail first hother)⟩⟩⟩
      exact List.cons_subset_cons first (List.subset_cons_self next rest) hmem

theorem smallestEnclosing_volume_le : ∀ axes ∈ first :: others,
    (smallestEnclosing first others shapes).volume ≤ (enclosing axes shapes).volume := by
  obtain ⟨best, -, heq, hleast⟩ := smallestEnclosing_spec first others shapes
  rw [heq]
  exact hleast

/-- If all frames are right-handed, the smallest box is that of a right-handed frame. -/
theorem smallestEnclosing_eq (hfirst : first.RightHanded)
    (hothers : ∀ axes ∈ others, axes.RightHanded) : ∃ axes : Mat3 ℝ, axes.RightHanded ∧
      smallestEnclosing first others shapes = enclosing axes shapes := by
  obtain ⟨axes, hmem, heq, -⟩ := smallestEnclosing_spec first others shapes
  exact ⟨axes, List.forall_mem_cons.mpr ⟨hfirst, hothers⟩ axes hmem, heq⟩

end Smallest

/-! ### Methods -/

variable (search : EigenSearch ℝ)

theorem pointAxesBy_rightHanded (shapes : List (Shape ℝ)) :
    (pointAxesBy search shapes).RightHanded :=
  principalAxesBy_rightHanded search _

theorem surfaceAxesBy_rightHanded (shapes : List (Shape ℝ)) (ofCovariance : Mat3 ℝ → Mat3 ℝ) :
    (surfaceAxesBy search shapes ofCovariance).RightHanded := by
  unfold surfaceAxesBy
  split
  · exact principalAxesBy_rightHanded search _
  · exact pointAxesBy_rightHanded search shapes

/-- A fitted box is the tight box of a right-handed frame. -/
theorem fittedBy_eq (method : FitMethod) (shapes : List (Shape ℝ)) :
    ∃ axes : Mat3 ℝ, axes.RightHanded ∧ fittedBy search method shapes = enclosing axes shapes := by
  have hbase := pointAxesBy_rightHanded search shapes
  cases method with
  | covariance => exact ⟨_, hbase, rfl⟩
  | surfaceCovariance => exact ⟨_, surfaceAxesBy_rightHanded search shapes id, rfl⟩
  | inertia => exact ⟨_, surfaceAxesBy_rightHanded search shapes inertiaOfCovariance, rfl⟩
  | calipers rotations =>
    exact smallestEnclosing_eq _ _ shapes hbase (caliperAxes_rightHanded hbase rotations)
  | angleGrid rotations =>
    exact smallestEnclosing_eq _ _ shapes Mat3.identity_rightHanded (gridAxes_rightHanded rotations)

/-- The box is the tight box of its own axes around something, and they are a right-handed
orthonormal frame. -/
structure AlongFrame (tight : Mat3 ℝ → OrientedBox ℝ) (box : OrientedBox ℝ) : Prop where
  rightHanded : box.axes.RightHanded
  eq_tight : box = tight box.axes

/-- Boxes in exact arithmetic, whatever a search for eigenvectors returns.

The box that a fitting method lays around shapes is the tight box of its own axes, which are a
right-handed orthonormal frame. Turning the principal axes, by any number of rotations, keeps a box
no larger than that of any of the turned frames, so no larger than that of the principal axes;
trying the angles of a grid keeps one no larger than that of any of its frames or of the coordinate
axes. Boxes around points and triangles are the tight boxes of such frames too. -/
theorem fitted_along_frames :
    (∀ method shapes, AlongFrame (enclosing · shapes) (fittedBy search method shapes)) ∧
    (∀ rotations shapes,
      (∀ axes ∈ pointAxesBy search shapes :: caliperAxes (pointAxesBy search shapes) rotations,
        (fittedBy search (.calipers rotations) shapes).volume ≤ (enclosing axes shapes).volume) ∧
      (fittedBy search (.calipers rotations) shapes).volume ≤
        (fittedBy search .covariance shapes).volume ∧
      (∀ axes ∈ Mat3.identity :: gridAxes rotations,
        (fittedBy search (.angleGrid rotations) shapes).volume ≤ (enclosing axes shapes).volume) ∧
      (fittedBy search (.angleGrid rotations) shapes).volume ≤
        (enclosing Mat3.identity shapes).volume) ∧
    (∀ points, AlongFrame (aroundPoints · points) (fittedToPointsBy search points)) ∧
    (∀ t : Triangle ℝ, AlongFrame (aroundPoints · t.corners) (aroundTriangle t)) ∧
    (∀ (method : FitMethod) (shapes : List (Shape ℝ)),
      fitted method shapes = fittedBy symmetricEigen method shapes) ∧
    ∀ points : List (Vec3 ℝ), fittedToPoints points = fittedToPointsBy symmetricEigen points := by
  refine ⟨fun method shapes ↦ ?_, fun rotations shapes ↦ ?_, fun points ↦ ?_, fun t ↦ ?_,
    fun method shapes ↦ (fittedBy_symmetricEigen method shapes).symm,
    fun points ↦ (fittedToPointsBy_symmetricEigen points).symm⟩
  · obtain ⟨axes, haxes, heq⟩ := fittedBy_eq search method shapes
    rw [heq]
    exact ⟨by rwa [enclosing_axes], by rw [enclosing_axes]⟩
  · have hcalipers := smallestEnclosing_volume_le (pointAxesBy search shapes)
      (caliperAxes (pointAxesBy search shapes) rotations) shapes
    have hgrid := smallestEnclosing_volume_le Mat3.identity (gridAxes rotations) shapes
    exact ⟨hcalipers, hcalipers _ List.mem_cons_self, hgrid, hgrid _ List.mem_cons_self⟩
  · have haxes := principalAxesBy_rightHanded search (pointCovariance points)
    exact ⟨by rwa [fittedToPointsBy, aroundPoints_axes], by rw [fittedToPointsBy, aroundPoints_axes]⟩
  · have haxes := triangleAxes_rightHanded t
    exact ⟨by rwa [aroundTriangle, aroundPoints_axes], by rw [aroundTriangle, aroundPoints_axes]⟩

end OrientedBox

end Collision
