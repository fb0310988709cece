import Collision.Box.Aligned
import Collision.Proofs.Space.Axes
import Mathlib.Analysis.Convex.Hull

/-!
# What boxes hold

`OrientedBox.Holds` says that a point lies in a box, and `OrientedBox.Regular` that the axes of the
box are an orthonormal frame and its radius is that of the sphere around its corners. Placing a box
places what it holds (`OrientedBox.Regular.placed_holds`), an axis measures what it holds inside the
projected interval (`OrientedBox.Regular.project_holds`), and the tight box around points holds
their hull (`OrientedBox.aroundPoints_holds`).
-/

set_option autoImplicit false
set_option relaxedAutoImplicit false

namespace Collision

/-! ### Intervals -/

namespace Interval

/-- The value lies in the interval. -/
def Holds (i : Interval ℝ) (value : ℝ) : Prop := i.lo ≤ value ∧ value ≤ i.hi

theorem around_holds {center reach value : ℝ} (h : |value - center| ≤ reach) :
    (around center reach).Holds value := by
  obtain ⟨hlo, hhi⟩ := abs_le.mp h
  show center - reach ≤ value ∧ value ≤ center + reach
  constructor <;> linarith

theorem shift_holds {i : Interval ℝ} {value : ℝ} (h : i.Holds value) (offset : ℝ) :
    (i.shift offset).Holds (value + offset) := by
  show i.lo + offset ≤ value + offset ∧ value + offset ≤ i.hi + offset
  obtain ⟨hlo, hhi⟩ := h
  constructor <;> linarith

theorem hull?_holds (values : List ℝ) (h : values ≠ []) :
    ∃ i, hull? values = some i ∧ ∀ a ∈ values, i.Holds a := by
  obtain ⟨least, hleast, hle⟩ := Scalar.minimum?_real_le values h
  obtain ⟨largest, hlargest, hge⟩ := Scalar.le_maximum?_real values h
  refine ⟨⟨least, largest⟩, by simp [hull?, hleast, hlargest], ?_⟩
  exact fun a ha ↦ ⟨hle a ha, hge a ha⟩

/-- The ends of the least interval around values are values. -/
theorem hull?_mem {values : List ℝ} {i : Interval ℝ} (h : hull? values = some i) :
    i.lo ∈ values ∧ i.hi ∈ values := by
  unfold hull? at h
  split at h
  · rename_i lo hi hlo hhi
    obtain rfl := Option.some_inj.mp h
    exact ⟨Scalar.minimum?_real_mem hlo, Scalar.maximum?_real_mem hhi⟩
  · cases h

/-- The least interval around points on an axis: it holds the places of all points, and its ends are
places of points. -/
theorem ofPoints?_spec {points : List (Vec3 ℝ)} (h : points ≠ []) (axis : Vec3 ℝ) :
    ∃ i, ofPoints? points axis = some i ∧ (∀ p ∈ points, i.Holds (p.dot axis)) ∧
      (∃ p ∈ points, p.dot axis = i.lo) ∧ ∃ p ∈ points, p.dot axis = i.hi := by
  obtain ⟨i, hi, hholds⟩ := hull?_holds (points.map fun p ↦ p.dot axis) (by simpa using h)
  obtain ⟨hlo, hhi⟩ := hull?_mem hi
  exact ⟨i, hi, fun p hp ↦ hholds _ (List.mem_map_of_mem hp), List.mem_map.mp hlo,
    List.mem_map.mp hhi⟩

/-- The common span of intervals holds what one of them holds. -/
theorem span_holds {intervals : List (Interval ℝ)} {i : Interval ℝ} (hi : i ∈ intervals)
    {value : ℝ} (h : i.Holds value) : (span intervals).Holds value := by
  have hlo : i.lo ∈ intervals.map Interval.lo := List.mem_map_of_mem hi
  have hhi : i.hi ∈ intervals.map Interval.hi := List.mem_map_of_mem hi
  obtain ⟨least, hleast, hle⟩ := Scalar.minimum?_real_le _ (List.ne_nil_of_mem hlo)
  obtain ⟨largest, hlargest, hge⟩ := Scalar.le_maximum?_real _ (List.ne_nil_of_mem hhi)
  unfold span
  rw [hleast, hlargest]
  exact ⟨(hle _ hlo).trans h.1, h.2.trans (hge _ hhi)⟩

end Interval

/-- The convex hull of listed points. -/
def Vec3.hull (points : List (Vec3 ℝ)) : Set (Vec3 ℝ) := convexHull ℝ {p | p ∈ points}

/-- A half-space that holds points holds their hull. -/
theorem dot_le_of_mem_hull {points : List (Vec3 ℝ)} {axis : Vec3 ℝ} {bound : ℝ}
    (h : ∀ p ∈ points, p.dot axis ≤ bound) {p : Vec3 ℝ} (hp : p ∈ Vec3.hull points) :
    p.dot axis ≤ bound := by
  have hlinear : IsLinearMap ℝ fun p : Vec3 ℝ ↦ p.dot axis :=
    ⟨fun v w ↦ Vec3.add_dot v w axis, fun s v ↦ Vec3.smul_dot s v axis⟩
  exact convexHull_min h (convex_halfSpace_le hlinear bound) hp

theorem Interval.holds_of_mem_hull {points : List (Vec3 ℝ)} {axis : Vec3 ℝ} {i : Interval ℝ}
    (h : ∀ p ∈ points, i.Holds (p.dot axis)) {p : Vec3 ℝ} (hp : p ∈ Vec3.hull points) :
    i.Holds (p.dot axis) := by
  constructor
  · have hneg : p.dot (-axis) ≤ -i.lo := by
      refine dot_le_of_mem_hull (fun q hq ↦ ?_) hp
      rw [Vec3.dot_neg]
      exact neg_le_neg (h q hq).1
    rw [Vec3.dot_neg] at hneg
    exact neg_le_neg_iff.mp hneg
  · exact dot_le_of_mem_hull (fun q hq ↦ (h q hq).2) hp

namespace OrientedBox

/-! ### Boxes and their points -/

/-- The point lies in the box. -/
def Holds (b : OrientedBox ℝ) (p : Vec3 ℝ) : Prop :=
  ∀ i : Fin 3, |(b.axes.col i).dot (p - b.center)| ≤ b.half.get i

/-- The axes are an orthonormal frame, and the radius reaches the corners. -/
structure Regular (b : OrientedBox ℝ) : Prop where
  orthonormal : b.axes.Orthonormal
  radius_eq : b.radius = ‖b.half‖

theorem ofHalfLengths_regular {axes : Mat3 ℝ} (h : axes.Orthonormal) (center half : Vec3 ℝ) :
    (ofHalfLengths center axes half).Regular := ⟨h, rfl⟩

theorem aligned_regular (center half : Vec3 ℝ) : (aligned center half).Regular :=
  ofHalfLengths_regular Mat3.identity_orthonormal center half

theorem aligned_holds {center half p : Vec3 ℝ} (hx : |p.x - center.x| ≤ half.x)
    (hy : |p.y - center.y| ≤ half.y) (hz : |p.z - center.z| ≤ half.z) :
    (aligned center half).Holds p := by
  intro i
  fin_cases i
  · simpa [aligned, ofHalfLengths, Mat3.identity, Mat3.col, Vec3.axis, Vec3.ofFn, Vec3.dot_eq,
      Vec3.get] using hx
  · simpa [aligned, ofHalfLengths, Mat3.identity, Mat3.col, Vec3.axis, Vec3.ofFn, Vec3.dot_eq,
      Vec3.get] using hy
  · simpa [aligned, ofHalfLengths, Mat3.identity, Mat3.col, Vec3.axis, Vec3.ofFn, Vec3.dot_eq,
      Vec3.get] using hz

namespace Regular

variable {b : OrientedBox ℝ} {p : Vec3 ℝ}

/-- The sphere around the box holds what the box holds. -/
theorem norm_le_radius (hb : b.Regular) (hp : b.Holds p) : ‖p - b.center‖ ≤ b.radius := by
  rw [hb.radius_eq, Vec3.norm_eq_sqrt_dot, Vec3.norm_eq_sqrt_dot]
  refine Real.sqrt_le_sqrt ?_
  rw [← hb.orthonormal.transposeMulVec_dot, Vec3.dot_eq, Vec3.dot_eq]
  have hx := abs_mul_abs_self ((b.axes.col 0).dot (p - b.center)) ▸
    mul_self_le_mul_self (abs_nonneg _) (hp 0)
  have hy := abs_mul_abs_self ((b.axes.col 1).dot (p - b.center)) ▸
    mul_self_le_mul_self (abs_nonneg _) (hp 1)
  have hz := abs_mul_abs_self ((b.axes.col 2).dot (p - b.center)) ▸
    mul_self_le_mul_self (abs_nonneg _) (hp 2)
  exact add_le_add (add_le_add hx hy) hz

theorem placed (hb : b.Regular) {pose : Pose ℝ} (hpose : pose.Rigid) : (b.placed pose).Regular :=
  ⟨(Pose.matrix_orthonormal hpose).mul hb.orthonormal, hb.radius_eq⟩

/-- An axis of a frame measures at most the sum of what the three axes of the box measure. -/
theorem abs_dot_le (hb : b.Regular) (hp : b.Holds p) (axis : Vec3 ℝ) :
    |(p - b.center).dot axis| ≤ (b.axes.transposeMulVec axis).abs.dot b.half := by
  rw [hb.orthonormal.dot_eq_transposeMulVec (p - b.center) axis]
  have hbound (i : Fin 3) : |(b.axes.col i).dot (p - b.center) * (b.axes.col i).dot axis| ≤
      |(b.axes.col i).dot axis| * b.half.get i := by
    rw [abs_mul, mul_comm]
    exact mul_le_mul_of_nonneg_left (hp i) (abs_nonneg _)
  refine (abs_add_le _ _).trans (add_le_add ((abs_add_le _ _).trans (add_le_add ?_ ?_)) ?_)
  · exact hbound 0
  · exact hbound 1
  · exact hbound 2

theorem project_holds (hb : b.Regular) (hp : b.Holds p) (axis : Vec3 ℝ) :
    (b.project axis).Holds (p.dot axis) := by
  refine Interval.around_holds ?_
  rw [← Vec3.sub_dot]
  exact hb.abs_dot_le hp axis

end Regular

theorem placed_holds_iff {b : OrientedBox ℝ} {pose : Pose ℝ} (hpose : pose.Rigid) {p : Vec3 ℝ} :
    (b.placed pose).Holds (pose.transformPoint p) ↔ b.Holds p := by
  refine forall_congr' fun i ↦ ?_
  have hcol : ((pose.matrix * b.axes).col i) = pose.matrix.mulVec (b.axes.col i) := by
    fin_cases i <;> rfl
  show |((pose.matrix * b.axes).col i).dot
    (pose.transformPoint p - pose.transformPoint b.center)| ≤ b.half.get i ↔ _
  rw [hcol, Pose.transformPoint_sub, Mat3.mulVec_dot, Pose.matrix_transposeMulVec hpose]

theorem placed_holds {b : OrientedBox ℝ} {pose : Pose ℝ} (hpose : pose.Rigid) {p : Vec3 ℝ}
    (hp : b.Holds p) : (b.placed pose).Holds (pose.transformPoint p) :=
  (placed_holds_iff hpose).mpr hp

/-! ### Tight boxes -/

theorem ofCorners_regular {axes : Mat3 ℝ} (h : axes.Orthonormal) (lo hi : Vec3 ℝ) :
    (ofCorners axes lo hi).Regular := ⟨h, rfl⟩

theorem ofCorners_eq (axes : Mat3 ℝ) (lo hi : Vec3 ℝ) :
    ofCorners axes lo hi =
      ofHalfLengths (axes.mulVec ((1 / 2 : ℝ) • (lo + hi))) axes ((1 / 2 : ℝ) • (hi - lo)) := by
  rw [ofCorners, Vec3.mul_eq_smul, Vec3.mul_eq_smul, Scalar.half_real]

theorem ofCorners_holds {axes : Mat3 ℝ} (h : axes.Orthonormal) {lo hi p : Vec3 ℝ}
    (hbounds : ∀ i : Fin 3, lo.get i ≤ p.dot (axes.col i) ∧ p.dot (axes.col i) ≤ hi.get i) :
    (ofCorners axes lo hi).Holds p := by
  intro i
  have hcenter : (axes.col i).dot (axes.mulVec ((1 / 2 : ℝ) • (lo + hi))) =
      (lo.get i + hi.get i) / 2 := by
    have hread := congrArg (Vec3.get · i) (h.transposeMulVec_mulVec ((1 / 2 : ℝ) • (lo + hi)))
    rw [← Mat3.transposeMulVec_get, hread, Vec3.get_smul, Vec3.get_add]
    ring
  have hhalf : ((1 / 2 : ℝ) • (hi - lo)).get i = (hi.get i - lo.get i) / 2 := by
    rw [Vec3.get_smul, Vec3.get_sub]
    ring
  obtain ⟨hlo, hhi⟩ := hbounds i
  rw [ofCorners_eq]
  show |(axes.col i).dot (p - axes.mulVec ((1 / 2 : ℝ) • (lo + hi)))| ≤
    ((1 / 2 : ℝ) • (hi - lo)).get i
  rw [Vec3.dot_sub, hcenter, hhalf, Vec3.dot_comm, abs_le]
  constructor <;> linarith

theorem foldl_lesser_get_le (points : List (Vec3 ℝ)) (v : Vec3 ℝ) (i : Fin 3) :
    (points.foldl Vec3.lesser v).get i ≤ v.get i ∧
      ∀ p ∈ points, (points.foldl Vec3.lesser v).get i ≤ p.get i := by
  have hlesser (a b : Vec3 ℝ) : (a.lesser b).get i = min (a.get i) (b.get i) := by
    fin_cases i <;> exact Scalar.lesser_real _ _
  induction points generalizing v with
  | nil => simp
  | cons q rest ih =>
    obtain ⟨hstart, hrest⟩ := ih (v.lesser q)
    rw [hlesser] at hstart
    refine ⟨hstart.trans (min_le_left _ _), ?_⟩
    exact List.forall_mem_cons.mpr ⟨hstart.trans (min_le_right _ _), hrest⟩

theorem le_foldl_greater_get (points : List (Vec3 ℝ)) (v : Vec3 ℝ) (i : Fin 3) :
    v.get i ≤ (points.foldl Vec3.greater v).get i ∧
      ∀ p ∈ points, p.get i ≤ (points.foldl Vec3.greater v).get i := by
  have hgreater (a b : Vec3 ℝ) : (a.greater b).get i = max (a.get i) (b.get i) := by
    fin_cases i <;> exact Scalar.greater_real _ _
  induction points generalizing v with
  | nil => simp
  | cons q rest ih =>
    obtain ⟨hstart, hrest⟩ := ih (v.greater q)
    rw [hgreater] at hstart
    refine ⟨(le_max_left _ _).trans hstart, ?_⟩
    exact List.forall_mem_cons.mpr ⟨(le_max_right _ _).trans hstart, hrest⟩

theorem aroundPoints_regular {axes : Mat3 ℝ} (h : axes.Orthonormal) (points : List (Vec3 ℝ)) :
    (aroundPoints axes points).Regular := by
  cases points with
  | nil => exact ofHalfLengths_regular h _ _
  | cons p rest => exact ofCorners_regular h _ _

/-- The tight box around points holds their hull. -/
theorem aroundPoints_holds {axes : Mat3 ℝ} (h : axes.Orthonormal) {points : List (Vec3 ℝ)}
    {p : Vec3 ℝ} (hp : p ∈ Vec3.hull points) : (aroundPoints axes points).Holds p := by
  cases points with
  | nil => simp [Vec3.hull] at hp
  | cons first rest =>
    refine ofCorners_holds h fun i ↦ ?_
    have hread (q : Vec3 ℝ) : (axes.transposeMulVec q).get i = q.dot (axes.col i) := by
      rw [Vec3.dot_comm, Mat3.transposeMulVec_get]
    obtain ⟨hlo, hlos⟩ := foldl_lesser_get_le (rest.map axes.transposeMulVec)
      (axes.transposeMulVec first) i
    obtain ⟨hhi, hhis⟩ := le_foldl_greater_get (rest.map axes.transposeMulVec)
      (axes.transposeMulVec first) i
    refine Interval.holds_of_mem_hull (i := ⟨_, _⟩) ?_ hp
    intro q hq
    rw [← hread]
    rcases List.mem_cons.mp hq with rfl | hq
    · exact ⟨hlo, hhi⟩
    · exact ⟨hlos _ (List.mem_map_of_mem hq), hhis _ (List.mem_map_of_mem hq)⟩

end OrientedBox

/-! ### World boxes -/

namespace AlignedBox

/-- The point lies in the box. -/
def Holds (b : AlignedBox ℝ) (p : Vec3 ℝ) : Prop :=
  ∀ i : Fin 3, b.lo.get i ≤ p.get i ∧ p.get i ≤ b.hi.get i

/-- Boxes with a common point meet. -/
theorem Holds.meets {a b : AlignedBox ℝ} {p : Vec3 ℝ} (ha : a.Holds p) (hb : b.Holds p) :
    ∀ i : Fin 3, a.lo.get i ≤ b.hi.get i ∧ b.lo.get i ≤ a.hi.get i :=
  fun i ↦ ⟨(ha i).1.trans (hb i).2, (hb i).1.trans (ha i).2⟩

/-- The world box of an oriented box holds what the oriented box holds where it stands. -/
theorem ofOriented_holds {b : OrientedBox ℝ} (hb : b.Regular) {pose : Pose ℝ} (hpose : pose.Rigid)
    {p : Vec3 ℝ} (hp : (b.placed pose).Holds p) : (ofOriented b pose).Holds p := by
  have hreach (i : Fin 3) : |p.get i - (b.placed pose).center.get i| ≤
      (((b.placed pose).axes.mapCols Vec3.abs).mulVec (b.placed pose).half).get i := by
    have hbound := (hb.placed hpose).abs_dot_le hp (Vec3.axis i)
    have hrow : ((b.placed pose).axes.transposeMulVec (Vec3.axis i)).abs =
        ((b.placed pose).axes.mapCols Vec3.abs).row i := by
      simp only [Mat3.transposeMulVec, Vec3.dot_axis, Vec3.abs, Vec3.map]
      fin_cases i <;> rfl
    rw [Vec3.dot_axis, Vec3.get_sub, hrow] at hbound
    refine hbound.trans_eq ?_
    fin_cases i <;> rfl
  intro i
  have hlo : (ofOriented b pose).lo.get i = (b.placed pose).center.get i -
      (((b.placed pose).axes.mapCols Vec3.abs).mulVec (b.placed pose).half).get i := by
    fin_cases i <;> rfl
  have hhi : (ofOriented b pose).hi.get i = (b.placed pose).center.get i +
      (((b.placed pose).axes.mapCols Vec3.abs).mulVec (b.placed pose).half).get i := by
    fin_cases i <;> rfl
  obtain ⟨hleft, hright⟩ := abs_le.mp (hreach i)
  rw [hlo, hhi]
  constructor <;> linarith

end AlignedBox

end Collision
