import Collision.Proofs.Shape.Closest
import Collision.Proofs.Shape.Corners
import Collision.Proofs.Space.Form
import Collision.Shape.Surface

/-!
# Moments of surfaces

A triangle has the moments of four weights: three quarters of its area at the centroid and a twelfth
at each corner (`SurfaceMoments.addTriangle_eq`). So whatever holds of weights at points holds of
surfaces. Two things are left to show of triangles, that a rigid motion keeps their area
(`Triangle.area_moved`), and that a triangle cut at one of its points has the moments of its pieces
(`SurfaceMoments.addTriangle_cut`), for which the nine and the twelve in the second moment must be
just these.

`SurfacePiece` is what moments are gathered from. `SurfaceMoments.Moved` says how the moments of
moved pieces follow from those of the pieces, and `SurfaceMoments.Spread` that the second moment
about any point is not negative in any direction; both are kept by every piece, so that they hold of
all lists of pieces. A box gathers the area of its faces, and by symmetry nothing else
(`SurfaceMoments.ofPieces_boxSurface`).

* `SurfaceMoments.moments_of_surfaces` collects what this says of centroid and covariance.
-/

set_option autoImplicit false
set_option relaxedAutoImplicit false

namespace Collision

/-! ### Areas -/

namespace Triangle

/-- The area of the triangle, as moments take it. -/
def area {α : Type} [Scalar α] (t : Triangle α) : α := 0.5 * ((t.b - t.a).cross (t.c - t.a)).norm

theorem area_eq (t : Triangle ℝ) : t.area = ‖(t.b - t.a).cross (t.c - t.a)‖ / 2 := by
  rw [area, Scalar.decimal_real, Vec3.norm_eq_norm]
  norm_num
  ring

theorem area_nonneg (t : Triangle ℝ) : 0 ≤ t.area :=
  t.area_eq ▸ div_nonneg (norm_nonneg _) zero_le_two

theorem area_eq_of_cross {t u : Triangle ℝ} {s : ℝ} (hs : 0 ≤ s)
    (h : (u.b - u.a).cross (u.c - u.a) = s • (t.b - t.a).cross (t.c - t.a)) :
    u.area = s * t.area := by
  rw [area_eq, h, norm_smul, Real.norm_of_nonneg hs, mul_div_assoc, area_eq]

theorem area_swapped (t : Triangle ℝ) : (Triangle.mk t.b t.a t.c).area = t.area := by
  have hcross : (t.a - t.b).cross (t.c - t.b) = -(t.b - t.a).cross (t.c - t.a) := by
    ext <;> simp [Vec3.cross] <;> ring
  rw [area_eq, area_eq, hcross, norm_neg]

theorem area_turned (t : Triangle ℝ) : (Triangle.mk t.b t.c t.a).area = t.area := by
  have hcross : (t.c - t.b).cross (t.a - t.b) = (t.b - t.a).cross (t.c - t.a) := by
    ext <;> simp [Vec3.cross] <;> ring
  rw [area_eq, area_eq, hcross]

end Triangle

/-- A vector product of turned vectors is as long as that of the vectors. -/
theorem Mat3.Orthonormal.norm_cross {r : Mat3 ℝ} (hr : r.Orthonormal) (v w : Vec3 ℝ) :
    ‖(r.mulVec v).cross (r.mulVec w)‖ = ‖v.cross w‖ := by
  rw [Vec3.norm_eq_sqrt_dot, Vec3.norm_eq_sqrt_dot, Vec3.cross_dot_self, Vec3.cross_dot_self,
    hr.mulVec_dot_mulVec, hr.mulVec_dot_mulVec, hr.mulVec_dot_mulVec]

/-- The point turned by a matrix, then moved along a vector. -/
noncomputable def Vec3.turned (r : Mat3 ℝ) (offset p : Vec3 ℝ) : Vec3 ℝ := r.mulVec p + offset

theorem Vec3.turned_dot (r : Mat3 ℝ) (offset p v : Vec3 ℝ) :
    v.dot (turned r offset p) = (r.transposeMulVec v).dot p + v.dot offset := by
  rw [turned, dot_add, dot_comm v, Mat3.mulVec_dot, dot_comm]

theorem Triangle.area_moved {r : Mat3 ℝ} (hr : r.Orthonormal) (offset : Vec3 ℝ)
    (t : Triangle ℝ) : (t.map (Vec3.turned r offset)).area = t.area := by
  have hedge (p q : Vec3 ℝ) :
      Vec3.turned r offset p - Vec3.turned r offset q = r.mulVec (p - q) := by
    simp only [Vec3.turned, Mat3.mulVec_eq]
    ext <;> simp <;> ring
  simp only [area_eq, map, hedge]
  rw [hr.norm_cross]

/-! ### Pieces of a surface -/

/-- What moments are gathered from. -/
inductive SurfacePiece where
  /-- A weight concentrated in a point. -/
  | point (p : Vec3 ℝ) (weight : ℝ)
  | triangle (t : Triangle ℝ)

namespace SurfacePiece

/-- The weight of a point is positive. -/
def Positive : SurfacePiece → Prop
  | point _ weight => 0 < weight
  | triangle _ => True

/-- The piece with its points moved. -/
def map (f : Vec3 ℝ → Vec3 ℝ) : SurfacePiece → SurfacePiece
  | point p weight => point (f p) weight
  | triangle t => triangle (t.map f)

end SurfacePiece

attribute [ext] SurfaceMoments

namespace SurfaceMoments

/-- Add a piece. -/
noncomputable def add (m : SurfaceMoments ℝ) : SurfacePiece → SurfaceMoments ℝ
  | .point p weight => m.addPoint p weight
  | .triangle t => m.addTriangle t

/-- The moments of pieces. -/
noncomputable def ofPieces (pieces : List SurfacePiece) : SurfaceMoments ℝ :=
  pieces.foldl add empty

variable {m n : SurfaceMoments ℝ}

/-! ### Moments as numbers -/

theorem ext_form (harea : m.area = n.area) (hfirst : ∀ v : Vec3 ℝ, v.dot m.first = v.dot n.first)
    (hsecond : ∀ v w, m.second.form v w = n.second.form v w) : m = n := by
  refine SurfaceMoments.ext harea (Vec3.ext_get fun i ↦ ?_) (Mat3.ext_form hsecond)
  rw [← Vec3.dot_axis, Vec3.dot_comm, hfirst, Vec3.dot_comm, Vec3.dot_axis]

section Adding

variable (m) (p v w : Vec3 ℝ) (weight : ℝ)

theorem addPoint_area : (m.addPoint p weight).area = m.area + weight := rfl

theorem addPoint_first :
    v.dot (m.addPoint p weight).first = v.dot m.first + v.dot p * weight := by
  have hfirst : (m.addPoint p weight).first = m.first + weight • p := rfl
  rw [hfirst, Vec3.dot_add, Vec3.dot_smul, mul_comm weight]

theorem addPoint_second : (m.addPoint p weight).second.form v w =
    m.second.form v w + v.dot p * w.dot p * weight := by
  have hsecond : (m.addPoint p weight).second = m.second + Mat3.outer p p * weight := rfl
  rw [hsecond, Mat3.form_add, Mat3.form_mul, Mat3.form_outer, Vec3.dot_comm p w]

end Adding

/-- A triangle weighs as much at its centroid and its corners. -/
theorem addTriangle_eq (m : SurfaceMoments ℝ) (t : Triangle ℝ) :
    m.addTriangle t = (((m.addPoint t.centroid (3 / 4 * t.area)).addPoint t.a
      (t.area / 12)).addPoint t.b (t.area / 12)).addPoint t.c (t.area / 12) := by
  have harea : @OfScientific.ofScientific ℝ Scalar.instOfScientific 5 true 1 *
      ((t.b - t.a).cross (t.c - t.a)).norm = t.area := rfl
  simp only [addTriangle, harea, Scalar.numeral_real]
  refine ext_form ?_ (fun v ↦ ?_) (fun v w ↦ ?_)
  · simp only [addPoint_area]
    ring
  · simp only [addPoint_first, Vec3.dot_add, Vec3.mul_eq_smul, Vec3.dot_smul, t.dot_centroid]
    ring
  · simp only [addPoint_second, Mat3.form_add, Mat3.form_mul, Mat3.form_outer, Vec3.mul_eq_smul,
      Vec3.dot_smul, Vec3.dot_comm _ w, t.dot_centroid]
    ring

section Triangles

variable (m) (t : Triangle ℝ) (v w : Vec3 ℝ)

theorem addTriangle_area : (m.addTriangle t).area = m.area + t.area := by
  simp only [addTriangle_eq, addPoint_area]
  ring

theorem addTriangle_first :
    v.dot (m.addTriangle t).first = v.dot m.first + v.dot t.centroid * t.area := by
  simp only [addTriangle_eq, addPoint_first, t.dot_centroid]
  ring

theorem addTriangle_second : (m.addTriangle t).second.form v w = m.second.form v w +
    (9 * (v.dot t.centroid * w.dot t.centroid) + v.dot t.a * w.dot t.a + v.dot t.b * w.dot t.b +
      v.dot t.c * w.dot t.c) * (t.area / 12) := by
  simp only [addTriangle_eq, addPoint_second]
  ring

end Triangles

/-! ### Other triangulations -/

/-- A triangle cut at one of its points has the moments of its three pieces. -/
theorem addTriangle_cut (m : SurfaceMoments ℝ) {t : Triangle ℝ} {p : Vec3 ℝ}
    (hp : p ∈ Vec3.hull t.corners) :
    ((m.addTriangle ⟨p, t.a, t.b⟩).addTriangle ⟨p, t.b, t.c⟩).addTriangle ⟨p, t.c, t.a⟩ =
      m.addTriangle t := by
  obtain ⟨y, z, hy, hz, hyz, rfl⟩ := Triangle.mem_hull_corners.mp hp
  have hab : (Triangle.mk (t.pointAt y z) t.a t.b).area = z * t.area := by
    refine Triangle.area_eq_of_cross hz ?_
    ext <;> simp [Triangle.pointAt, Vec3.cross] <;> ring
  have hbc : (Triangle.mk (t.pointAt y z) t.b t.c).area = (1 - y - z) * t.area := by
    refine Triangle.area_eq_of_cross (by linarith) ?_
    ext <;> simp [Triangle.pointAt, Vec3.cross] <;> ring
  have hca : (Triangle.mk (t.pointAt y z) t.c t.a).area = y * t.area := by
    refine Triangle.area_eq_of_cross hy ?_
    ext <;> simp [Triangle.pointAt, Vec3.cross] <;> ring
  have hpoint (v : Vec3 ℝ) :
      v.dot (t.pointAt y z) = (1 - y - z) * v.dot t.a + y * v.dot t.b + z * v.dot t.c := by
    simp only [Triangle.pointAt_eq, Vec3.dot_add, Vec3.dot_smul]
  refine ext_form ?_ (fun v ↦ ?_) (fun v w ↦ ?_)
  · simp only [addTriangle_area, hab, hbc, hca]
    ring
  · simp only [addTriangle_first, Triangle.dot_centroid, hab, hbc, hca, hpoint]
    ring
  · simp only [addTriangle_second, Triangle.dot_centroid, hab, hbc, hca, hpoint]
    ring

theorem addTriangle_swapped (m : SurfaceMoments ℝ) (t : Triangle ℝ) :
    m.addTriangle ⟨t.b, t.a, t.c⟩ = m.addTriangle t := by
  refine ext_form ?_ (fun v ↦ ?_) (fun v w ↦ ?_)
  · simp only [addTriangle_area, t.area_swapped]
  · simp only [addTriangle_first, Triangle.dot_centroid, t.area_swapped]
    ring
  · simp only [addTriangle_second, Triangle.dot_centroid, t.area_swapped]
    ring

theorem addTriangle_turned (m : SurfaceMoments ℝ) (t : Triangle ℝ) :
    m.addTriangle ⟨t.b, t.c, t.a⟩ = m.addTriangle t := by
  refine ext_form ?_ (fun v ↦ ?_) (fun v w ↦ ?_)
  · simp only [addTriangle_area, t.area_turned]
  · simp only [addTriangle_first, Triangle.dot_centroid, t.area_turned]
    ring
  · simp only [addTriangle_second, Triangle.dot_centroid, t.area_turned]
    ring

/-- The order of the corners does not matter. -/
theorem addTriangle_of_perm (m : SurfaceMoments ℝ) {t u : Triangle ℝ}
    (h : u.corners.Perm t.corners) : m.addTriangle u = m.addTriangle t := by
  have hswap := m.addTriangle_swapped
  have hturn := m.addTriangle_turned
  have horder : [u.a, u.b, u.c] ∈ [t.a, t.b, t.c].permutations' := List.mem_permutations'.mpr h
  have hall : [t.a, t.b, t.c].permutations' = [[t.a, t.b, t.c], [t.b, t.a, t.c], [t.b, t.c, t.a],
      [t.a, t.c, t.b], [t.c, t.a, t.b], [t.c, t.b, t.a]] := rfl
  rw [hall] at horder
  obtain ⟨a, b, c⟩ := t
  obtain ⟨ua, ub, uc⟩ := u
  simp only [List.mem_cons, List.cons.injEq, and_true, List.not_mem_nil, or_false] at horder
  rcases horder with ⟨rfl, rfl, rfl⟩ | ⟨rfl, rfl, rfl⟩ | ⟨rfl, rfl, rfl⟩ | ⟨rfl, rfl, rfl⟩ |
    ⟨rfl, rfl, rfl⟩ | ⟨rfl, rfl, rfl⟩
  · rfl
  · exact hswap ⟨_, _, _⟩
  · exact hturn ⟨_, _, _⟩
  · exact (hswap ⟨_, _, _⟩).trans (hturn ⟨_, _, _⟩).symm
  · exact (hturn ⟨_, _, _⟩).symm
  · exact (hswap ⟨_, _, _⟩).trans (hturn ⟨_, _, _⟩)

/-! ### Moved pieces -/

/-- The second surface has the moments of the first, turned by a matrix and moved along a vector. -/
structure Moved (r : Mat3 ℝ) (offset : Vec3 ℝ) (m n : SurfaceMoments ℝ) : Prop where
  area : n.area = m.area
  first : ∀ v : Vec3 ℝ,
    v.dot n.first = (r.transposeMulVec v).dot m.first + v.dot offset * m.area
  second : ∀ v w : Vec3 ℝ, n.second.form v w =
    m.second.form (r.transposeMulVec v) (r.transposeMulVec w) +
      (r.transposeMulVec v).dot m.first * w.dot offset +
      v.dot offset * (r.transposeMulVec w).dot m.first + v.dot offset * w.dot offset * m.area

section Moving

variable {r : Mat3 ℝ} {offset : Vec3 ℝ}

theorem Moved.empty : Moved r offset empty empty where
  area := rfl
  first v := by simp [SurfaceMoments.empty, Vec3.zero_eq]
  second v w := by simp [SurfaceMoments.empty, Vec3.zero_eq, Mat3.form_zero]

theorem Moved.addPoint (h : Moved r offset m n) (p : Vec3 ℝ) (weight : ℝ) :
    Moved r offset (m.addPoint p weight) (n.addPoint (Vec3.turned r offset p) weight) where
  area := by rw [addPoint_area, addPoint_area, h.area]
  first v := by
    rw [addPoint_first, addPoint_first, addPoint_area, h.first, Vec3.turned_dot]
    ring
  second v w := by
    rw [addPoint_second, addPoint_second, addPoint_first, addPoint_first, addPoint_area, h.second,
      Vec3.turned_dot, Vec3.turned_dot]
    ring

theorem Moved.addTriangle (hr : r.Orthonormal) (h : Moved r offset m n) (t : Triangle ℝ) :
    Moved r offset (m.addTriangle t) (n.addTriangle (t.map (Vec3.turned r offset))) := by
  have hcentroid : (t.map (Vec3.turned r offset)).centroid =
      Vec3.turned r offset t.centroid := by
    refine Vec3.ext_get fun i ↦ ?_
    rw [← Vec3.dot_axis, ← Vec3.dot_axis, Vec3.dot_comm, Vec3.dot_comm (Vec3.turned _ _ _),
      Triangle.dot_centroid, Vec3.turned_dot, Triangle.dot_centroid]
    simp only [Triangle.map, Vec3.turned_dot]
    ring
  rw [addTriangle_eq, addTriangle_eq, Triangle.area_moved hr, hcentroid]
  exact (((h.addPoint _ _).addPoint _ _).addPoint _ _).addPoint _ _

theorem Moved.foldl (hr : r.Orthonormal) (pieces : List SurfacePiece) (h : Moved r offset m n) :
    Moved r offset (pieces.foldl add m)
      ((pieces.map (SurfacePiece.map (Vec3.turned r offset))).foldl add n) := by
  induction pieces generalizing m n with
  | nil => exact h
  | cons piece rest ih =>
    cases piece with
    | point p weight => exact ih (h.addPoint p weight)
    | triangle t => exact ih (h.addTriangle hr t)

end Moving

/-! ### Spread -/

/-- The second moment is symmetric, and about no point negative in any direction. -/
structure Spread (m : SurfaceMoments ℝ) : Prop where
  symmetric : ∀ v w, m.second.form v w = m.second.form w v
  nonneg : ∀ (v : Vec3 ℝ) (c : ℝ),
    0 ≤ m.second.form v v - 2 * c * v.dot m.first + c ^ 2 * m.area

theorem Spread.empty : Spread empty where
  symmetric v w := by simp [SurfaceMoments.empty, Mat3.form_zero]
  nonneg v c := by simp [SurfaceMoments.empty, Mat3.form_zero, Vec3.zero_eq]

theorem Spread.addPoint (h : Spread m) (p : Vec3 ℝ) {weight : ℝ} (hweight : 0 ≤ weight) :
    Spread (m.addPoint p weight) where
  symmetric v w := by
    rw [addPoint_second, addPoint_second, h.symmetric]
    ring
  nonneg v c := by
    have hsquare := mul_nonneg hweight (sq_nonneg (v.dot p - c))
    rw [addPoint_second, addPoint_first, addPoint_area]
    linear_combination h.nonneg v c + hsquare

theorem Spread.addTriangle (h : Spread m) (t : Triangle ℝ) : Spread (m.addTriangle t) := by
  have harea := t.area_nonneg
  have hcentroid : 0 ≤ 3 / 4 * t.area := by positivity
  have hcorner : 0 ≤ t.area / 12 := by positivity
  rw [addTriangle_eq]
  exact (((h.addPoint _ hcentroid).addPoint _ hcorner).addPoint _ hcorner).addPoint _ hcorner

theorem Spread.foldl {pieces : List SurfacePiece} (hpieces : ∀ piece ∈ pieces, piece.Positive)
    (h : Spread m) : Spread (pieces.foldl add m) := by
  induction pieces generalizing m with
  | nil => exact h
  | cons piece rest ih =>
    obtain ⟨hpiece, hrest⟩ := List.forall_mem_cons.mp hpieces
    cases piece with
    | point p weight => exact ih hrest (h.addPoint p hpiece.le)
    | triangle t => exact ih hrest (h.addTriangle t)

/-! ### Centroid and covariance -/

theorem centroid?_eq (h : 0 < m.area) : m.centroid? = some (m.first / m.area) := by
  rw [centroid?, Scalar.zero_real, if_pos h]

theorem covariance?_eq (h : 0 < m.area) : ∃ c, m.covariance? = some c ∧ ∀ v w,
    c.form v w =
      m.second.form v w / m.area - v.dot m.first / m.area * (w.dot m.first / m.area) := by
  refine ⟨_, by rw [covariance?, centroid?_eq h, Option.map_some], fun v w ↦ ?_⟩
  rw [Mat3.form_sub, Mat3.form_div, Mat3.form_outer, Vec3.div_eq_smul, Vec3.dot_smul,
    Vec3.smul_dot, Vec3.dot_comm m.first]
  ring

/-- A rigid motion of pieces with some weight moves the centroid and turns the covariance, which is
symmetric and positive semidefinite. -/
theorem covariance_turned {pieces : List SurfacePiece}
    (hpieces : ∀ piece ∈ pieces, piece.Positive) (harea : 0 < (ofPieces pieces).area)
    {r : Mat3 ℝ} (hr : r.Orthonormal) (offset : Vec3 ℝ) :
    let moved := pieces.map (SurfacePiece.map (Vec3.turned r offset))
    ∃ c C, (ofPieces pieces).centroid? = some c ∧ (ofPieces pieces).covariance? = some C ∧
      (ofPieces moved).centroid? = some (Vec3.turned r offset c) ∧
      (ofPieces moved).covariance? = some (r * C * r.transpose) ∧
      C.transpose = C ∧ ∀ v : Vec3 ℝ, 0 ≤ v.dot (C.mulVec v) := by
  intro moved
  have hmoved : Moved r offset (ofPieces pieces) (ofPieces moved) := Moved.empty.foldl hr pieces
  have hspread : Spread (ofPieces pieces) := Spread.empty.foldl hpieces
  have hmovedArea : 0 < (ofPieces moved).area := hmoved.area.symm ▸ harea
  generalize ofPieces moved = n at hmoved hmovedArea ⊢
  generalize ofPieces pieces = m at hmoved hspread harea ⊢
  obtain ⟨C, hC, hform⟩ := covariance?_eq harea
  obtain ⟨D, hD, hmovedForm⟩ := covariance?_eq hmovedArea
  refine ⟨_, C, centroid?_eq harea, hC, ?_, ?_, ?_, fun v ↦ ?_⟩
  · rw [centroid?_eq hmovedArea, Option.some_inj]
    refine Vec3.ext_get fun i ↦ ?_
    rw [← Vec3.dot_axis, ← Vec3.dot_axis, Vec3.dot_comm, Vec3.dot_comm (Vec3.turned _ _ _),
      Vec3.turned_dot, Vec3.div_eq_smul, Vec3.div_eq_smul, Vec3.dot_smul, Vec3.dot_smul,
      hmoved.first, hmoved.area]
    field_simp
  · rw [hD, Option.some_inj]
    refine Mat3.ext_form fun v w ↦ ?_
    rw [Mat3.form_conjugate, hform, hmovedForm, hmoved.second, hmoved.first, hmoved.first,
      hmoved.area]
    field_simp
    ring
  · refine Mat3.ext_form fun v w ↦ ?_
    rw [Mat3.form_transpose, hform, hform, hspread.symmetric]
    ring
  · -- The second moment about the centroid, in units of the area.
    have hnonneg := div_nonneg (hspread.nonneg v (v.dot m.first / m.area)) harea.le
    have hdot : v.dot (C.mulVec v) = C.form v v := rfl
    rw [hdot, hform]
    refine hnonneg.trans_eq ?_
    field_simp
    ring

/-! ### Boxes -/

/-- Pieces add the same to all moments. -/
theorem foldl_add (pieces : List SurfacePiece) (m : SurfaceMoments ℝ) :
    (pieces.foldl add m).area = m.area + (ofPieces pieces).area ∧
      (pieces.foldl add m).first = m.first + (ofPieces pieces).first := by
  have hadd (m : SurfaceMoments ℝ) (piece : SurfacePiece) :
      (m.add piece).area = m.area + (empty.add piece).area ∧
        (m.add piece).first = m.first + (empty.add piece).first := by
    cases piece <;>
      simp [add, SurfaceMoments.addPoint, SurfaceMoments.addTriangle, SurfaceMoments.empty,
        Vec3.zero_eq]
  induction pieces generalizing m with
  | nil => simp [ofPieces, SurfaceMoments.empty, Vec3.zero_eq]
  | cons piece rest ih =>
    obtain ⟨harea, hfirst⟩ := ih (m.add piece)
    obtain ⟨hareaOne, hfirstOne⟩ := ih (empty.add piece)
    obtain ⟨hareaAdd, hfirstAdd⟩ := hadd m piece
    refine ⟨?_, ?_⟩
    · rw [ofPieces, List.foldl_cons, List.foldl_cons, harea, hareaOne, hareaAdd, add_assoc]
    · rw [ofPieces, List.foldl_cons, List.foldl_cons, hfirst, hfirstOne, hfirstAdd, add_assoc]

theorem ofPieces_triangles (ts : List (Triangle ℝ)) :
    (ofPieces (ts.map .triangle)).area = (ts.map Triangle.area).sum ∧
      ∀ v : Vec3 ℝ, v.dot (ofPieces (ts.map .triangle)).first =
        (ts.map fun t ↦ v.dot t.centroid * t.area).sum := by
  induction ts with
  | nil => simp [ofPieces, SurfaceMoments.empty, Vec3.zero_eq]
  | cons t rest ih =>
    obtain ⟨harea, hfirst⟩ := foldl_add (rest.map .triangle) (empty.addTriangle t)
    have hcons : ofPieces ((t :: rest).map .triangle) =
      (rest.map .triangle).foldl add (empty.addTriangle t) := rfl
    rw [hcons, harea, hfirst]
    refine ⟨?_, fun v ↦ ?_⟩
    · simp [addTriangle_area, ih.1, SurfaceMoments.empty]
    · simp [addTriangle_first, ih.2, SurfaceMoments.empty, Vec3.zero_eq]

section Box

variable {half : Vec3 ℝ} (hhalf : (Primitive.box half).Valid)

include hhalf

/-- Two triangles cover each face, and each is half of it. -/
theorem surfaceTriangles_areas : (BoxCorners.surfaceTriangles half).map Triangle.area =
    List.replicate 4 (2 * (half.y * half.z)) ++ List.replicate 4 (2 * (half.z * half.x)) ++
      List.replicate 4 (2 * (half.x * half.y)) := by
  obtain ⟨hx, hy, hz⟩ := hhalf
  have hface {s t : ℝ} (hs : 0 < s) (ht : 0 < t) :
      √((-s - s) * (-t - t) * ((-s - s) * (-t - t))) / 2 = 2 * (s * t) := by
    rw [Real.sqrt_mul_self (by nlinarith)]
    ring
  simp [BoxCorners.surfaceTriangles, BoxCorners.surface, BoxCorners.corner, BoxCorners.side,
    Nat.testBit, Triangle.area_eq, Vec3.norm_eq_sqrt_dot, Vec3.cross, Vec3.dot_eq, hface, hx, hy,
    hz, mul_comm half.z half.y, mul_comm half.x half.z, mul_comm half.y half.x]

theorem ofPieces_boxSurface :
    (ofPieces ((BoxCorners.surfaceTriangles half).map .triangle)).area =
        8 * (half.x * half.y + half.y * half.z + half.z * half.x) ∧
      (ofPieces ((BoxCorners.surfaceTriangles half).map .triangle)).first = 0 := by
  obtain ⟨harea, hfirst⟩ := ofPieces_triangles (BoxCorners.surfaceTriangles half)
  have hareas := surfaceTriangles_areas hhalf
  refine ⟨?_, Vec3.ext_get fun i ↦ ?_⟩
  · rw [harea, hareas]
    simp
    ring
  · rw [← Vec3.dot_axis, ← Vec3.dot_axis, Vec3.dot_comm, hfirst, Vec3.zero_dot]
    simp only [BoxCorners.surfaceTriangles, BoxCorners.surface, List.map_cons, List.map_nil,
      List.replicate, List.cons_append, List.nil_append, List.cons.injEq, and_true,
      Triangle.dot_centroid, List.sum_cons, List.sum_nil] at hareas ⊢
    -- Opposite corners weigh the same.
    simp only [hareas, ← Vec3.dot_comm _ (Vec3.axis i), Vec3.dot_axis, BoxCorners.corner_get]
    fin_cases i <;> simp [BoxCorners.side, Nat.testBit] <;> ring

/-- A box adds the area of its faces, at its centre. -/
theorem addPrimitive_box {pose : Pose ℝ} (hpose : pose.Rigid) (m : SurfaceMoments ℝ) :
    let area := 8 * (half.x * half.y + half.y * half.z + half.z * half.x)
    (m.addPrimitive (.box half) pose).area = m.area + area ∧
      (m.addPrimitive (.box half) pose).first = m.first + area • pose.position := by
  intro area
  let pieces : List SurfacePiece := (BoxCorners.surfaceTriangles half).map .triangle
  let placed := pieces.map (SurfacePiece.map (Vec3.turned pose.matrix pose.position))
  have hturned (p : Vec3 ℝ) : Vec3.turned pose.matrix pose.position p = pose.transformPoint p := by
    rw [Vec3.turned, Pose.matrix, Rotation.matrix_mulVec hpose, add_comm, Pose.transformPoint]
  have hplaced : m.addPrimitive (.box half) pose = placed.foldl add m := by
    rw [addPrimitive]
    simp only [placed, pieces, List.map_map, List.foldl_map, Function.comp_apply, SurfacePiece.map,
      Triangle.map, hturned]
    rfl
  obtain ⟨harea, hfirst⟩ := ofPieces_boxSurface hhalf
  have hmoved : Moved pose.matrix pose.position (ofPieces pieces) (ofPieces placed) :=
    Moved.empty.foldl (Pose.matrix_orthonormal hpose) pieces
  have hmovedFirst : (ofPieces placed).first = area • pose.position := by
    refine Vec3.ext_get fun i ↦ ?_
    rw [← Vec3.dot_axis, ← Vec3.dot_axis, Vec3.dot_comm, hmoved.first, hfirst, harea,
      Vec3.dot_zero, zero_add, Vec3.smul_dot, Vec3.dot_comm, mul_comm]
  rw [hplaced, (foldl_add placed m).1, (foldl_add placed m).2, hmoved.area, harea, hmovedFirst]
  exact ⟨rfl, rfl⟩

end Box

/-! ### Results -/

/-- Moments depend neither on how a triangle is cut nor on the order of its corners, follow rigid
motions, and are those of its faces for a box. -/
theorem moments_of_surfaces :
    (∀ (m : SurfaceMoments ℝ) (t : Triangle ℝ), ∀ p ∈ Vec3.hull t.corners,
      ((m.addTriangle ⟨p, t.a, t.b⟩).addTriangle ⟨p, t.b, t.c⟩).addTriangle ⟨p, t.c, t.a⟩ =
        m.addTriangle t) ∧
    (∀ (m : SurfaceMoments ℝ) (t u : Triangle ℝ), u.corners.Perm t.corners →
      m.addTriangle u = m.addTriangle t) ∧
    (∀ pieces : List SurfacePiece, (∀ piece ∈ pieces, piece.Positive) →
      0 < (ofPieces pieces).area → ∀ r : Mat3 ℝ, r.Orthonormal → ∀ offset : Vec3 ℝ,
        let moved := pieces.map (SurfacePiece.map (Vec3.turned r offset))
        ∃ c C, (ofPieces pieces).centroid? = some c ∧ (ofPieces pieces).covariance? = some C ∧
          (ofPieces moved).centroid? = some (Vec3.turned r offset c) ∧
          (ofPieces moved).covariance? = some (r * C * r.transpose) ∧
          C.transpose = C ∧ ∀ v : Vec3 ℝ, 0 ≤ v.dot (C.mulVec v)) ∧
    ∀ half : Vec3 ℝ, (Primitive.box half).Valid →
      ∀ part : Part ℝ, part.primitive = .box half → part.Rigid → ∀ pose : Pose ℝ, pose.Rigid →
        (∀ m : SurfaceMoments ℝ, (m.addPart part pose).area =
          m.area + 8 * (half.x * half.y + half.y * half.z + half.z * half.x)) ∧
        (empty.addPart part pose).centroid? = some (part.center pose) := by
  refine ⟨fun m _ _ ↦ m.addTriangle_cut, fun m _ _ ↦ m.addTriangle_of_perm,
    fun _ hpieces harea r hr ↦ covariance_turned hpieces harea hr, ?_⟩
  intro half hhalf part hbox hpart pose hpose
  have hadded (m : SurfaceMoments ℝ) := addPrimitive_box hhalf (hpart.rebase hpose) m
  simp only [addPart, hbox]
  refine ⟨fun m ↦ (hadded m).1, ?_⟩
  obtain ⟨hx, hy, hz⟩ := hhalf
  have hfaces : 0 < 8 * (half.x * half.y + half.y * half.z + half.z * half.x) := by positivity
  obtain ⟨harea, hfirst⟩ := hadded empty
  have hempty : (empty : SurfaceMoments ℝ).area = 0 := Scalar.zero_real
  have hemptyFirst : (empty : SurfaceMoments ℝ).first = 0 := Vec3.zero_eq
  rw [hempty, zero_add] at harea
  rw [centroid?_eq (harea.symm ▸ hfaces), harea, hfirst, hemptyFirst, zero_add, Vec3.div_eq_smul,
    smul_smul, inv_mul_cancel₀ hfaces.ne', one_smul, Part.center, hbox, Primitive.center]

/-- A triangle cut at its centre and read backwards, the triangle with a point beside it after a
quarter turn, and a box. -/
theorem moments_of_surfaces_quarter_turn :
    let t : Triangle ℝ := ⟨0, Vec3.axis 0, Vec3.axis 1⟩
    let turn : Mat3 ℝ := ⟨Vec3.axis 1, -Vec3.axis 0, Vec3.axis 2⟩
    ((empty.addTriangle ⟨t.centroid, t.a, t.b⟩).addTriangle
        ⟨t.centroid, t.b, t.c⟩).addTriangle ⟨t.centroid, t.c, t.a⟩ = empty.addTriangle t ∧
      empty.addTriangle ⟨t.c, t.b, t.a⟩ = empty.addTriangle t ∧
      (∃ c C, (ofPieces [.triangle t, .point (Vec3.axis 2) 1]).centroid? = some c ∧
        (ofPieces [.triangle t, .point (Vec3.axis 2) 1]).covariance? = some C ∧
        (ofPieces [.triangle (t.map (Vec3.turned turn (Vec3.axis 0))),
          .point (Vec3.turned turn (Vec3.axis 0) (Vec3.axis 2)) 1]).centroid? =
            some (Vec3.turned turn (Vec3.axis 0) c) ∧
        (ofPieces [.triangle (t.map (Vec3.turned turn (Vec3.axis 0))),
          .point (Vec3.turned turn (Vec3.axis 0) (Vec3.axis 2)) 1]).covariance? =
            some (turn * C * turn.transpose) ∧
        C.transpose = C ∧ ∀ v : Vec3 ℝ, 0 ≤ v.dot (C.mulVec v)) ∧
      (empty.addPart (.bare (.box (⟨1, 2, 3⟩ : Vec3 ℝ))) Pose.identity).area = 88 := by
  intro t turn
  obtain ⟨hcut, hperm, hmoved, hbox⟩ := moments_of_surfaces
  have hcentroid : t.centroid ∈ Vec3.hull t.corners := by
    refine Triangle.mem_hull_corners.mpr ⟨1 / 3, 1 / 3, by norm_num, by norm_num, by norm_num, ?_⟩
    rw [Triangle.pointAt_eq, Triangle.centroid_eq_smul]
    module
  have hturn : turn.Orthonormal := by
    constructor <;> simp [turn, Vec3.axis, Vec3.ofFn, Vec3.dot_eq]
  have hweights : ∀ piece ∈ [SurfacePiece.triangle t, .point (Vec3.axis 2) 1], piece.Positive := by
    simp [SurfacePiece.Positive]
  have harea : 0 < (ofPieces [.triangle t, .point (Vec3.axis 2) 1]).area := by
    have hsum : (ofPieces [.triangle t, .point (Vec3.axis 2) 1]).area =
        empty.area + t.area + 1 := by
      rw [← addTriangle_area, ← addPoint_area]
      rfl
    have hempty : (empty : SurfaceMoments ℝ).area = 0 := Scalar.zero_real
    rw [hsum, hempty]
    linarith [t.area_nonneg]
  have hvalid : (Primitive.box (⟨1, 2, 3⟩ : Vec3 ℝ)).Valid := by
    simp [Primitive.Valid]
  refine ⟨hcut _ _ _ hcentroid, hperm _ _ _ ?_, hmoved _ hweights harea turn hturn _, ?_⟩
  · exact List.reverse_perm [t.a, t.b, t.c]
  · rw [(hbox _ hvalid (.bare (.box ⟨1, 2, 3⟩)) rfl trivial Pose.identity Pose.identity_rigid).1]
    simp [SurfaceMoments.empty]
    norm_num

end SurfaceMoments

end Collision
