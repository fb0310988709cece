import Collision.Proofs.Pair.Round

/-!
# Segments and capsules

The squared distance of two points that run along two segments is least where neither point can
come closer by moving on its own: `Rests` says so of one parameter and the slope of the squared
distance along it, `Segment.Nearest` of both, and `Segment.Nearest.norm_le` draws the conclusion.

`Segment.closestParameters` moves one parameter after the other. The first one rests on the line of
the second segment; if the second one then has to be moved into its segment, the first one is chosen
anew, and `Rests.side_of_moved` says that the second still wants to leave its segment on the side
where it was stopped. The lines may be parallel, but nothing in between: `Segment.Clear` are the
pairs whose lines are parallel or differ by more than the tolerance.

* `Segment.closestParameters_nearest` says that neither of the points that are found can come closer
  by moving alone, `Segment.closestPoints_least` that no two points of the segments are closer.
* `Round.closest_of_segments_and_capsules` adds the case that the first segment is a point, and that
  two capsules are in contact exactly if the distance of their cores is smaller than the radii
  together.
-/

set_option autoImplicit false
set_option relaxedAutoImplicit false

namespace Collision

/-! ### Parameters at rest -/

/-- A parameter of the unit interval from which no other one is downhill, for a function with the
given slope there. -/
structure Rests (parameter slope : ℝ) : Prop where
  nonneg : 0 ≤ parameter
  le_one : parameter ≤ 1
  uphill : ∀ u, 0 ≤ u → u ≤ 1 → 0 ≤ (u - parameter) * slope

namespace Rests

theorem of_level {t : ℝ} (hnonneg : 0 ≤ t) (hle : t ≤ 1) : Rests t 0 :=
  ⟨hnonneg, hle, fun _ _ _ ↦ (mul_zero _).ge⟩

theorem zero {slope : ℝ} (h : 0 ≤ slope) : Rests 0 slope :=
  ⟨le_refl 0, zero_le_one, fun u hu _ ↦ by rw [sub_zero]; exact mul_nonneg hu h⟩

theorem one {slope : ℝ} (h : slope ≤ 0) : Rests 1 slope :=
  ⟨zero_le_one, le_refl 1, fun _ _ hu ↦ mul_nonneg_of_nonpos_of_nonpos (sub_nonpos.mpr hu) h⟩

/-- A quotient moved into the unit interval rests on the slope that vanishes at the quotient. -/
theorem clamp {k : ℝ} (hk : 0 < k) (m : ℝ) :
    Rests (Scalar.clamp (m / k) 0 1) (k * Scalar.clamp (m / k) 0 1 - m) := by
  unfold Scalar.clamp
  split_ifs with hlow hhigh
  · rw [div_lt_iff₀ hk, zero_mul] at hlow
    exact .zero (by linarith)
  · rw [lt_div_iff₀ hk, one_mul] at hhigh
    exact .one (by linarith)
  · rw [mul_div_cancel₀ _ hk.ne', sub_self]
    exact .of_level (not_lt.mp hlow) (not_lt.mp hhigh)

/-- Two parameters `s` and `t` run against each other with the slopes `a * s - b * t + c` and
`e * t - b * s - f`. Let `s` rest while `t` follows it freely, then fix `t` at zero and let `s` rest
anew: `t` still wants to go to the same side, if at all. -/
theorem side_of_moved {a b c e f free fixed : ℝ} (he : 0 < e) (hdet : 0 ≤ a * e - b * b)
    (hfree : Rests free ((a * e - b * b) * free - (b * f - c * e)))
    (hfixed : Rests fixed (a * fixed - -c)) :
    (b * free + f < 0 → b * fixed + f ≤ 0) ∧ (0 < b * free + f → 0 ≤ b * fixed + f) := by
  have hfirst := hfree.uphill fixed hfixed.nonneg hfixed.le_one
  have hsecond := mul_nonneg he.le (hfixed.uphill free hfree.nonneg hfree.le_one)
  have hsquare := mul_nonneg hdet (mul_self_nonneg (fixed - free))
  have hside : (b * fixed + f - (b * free + f)) * (b * fixed + f) ≤ 0 := by
    linear_combination hfirst + hsecond + hsquare
  constructor <;> intro hbefore <;> by_contra! hafter
  · exact hside.not_gt (mul_pos (by linarith) hafter)
  · exact hside.not_gt (mul_pos_of_neg_of_neg (by linarith) hafter)

/-- Moving the second of two such parameters into the unit interval, and the first one anew if the
second had to be stopped, leaves both at rest. -/
theorem pair_of_moved {a b c e f free : ℝ} (ha : 0 < a) (he : 0 < e) (hdet : 0 ≤ a * e - b * b)
    (hfree : Rests free ((a * e - b * b) * free - (b * f - c * e))) (chosen : ℝ × ℝ)
    (hchosen : chosen = if (b * free + f) / e < 0 then (Scalar.clamp (-c / a) 0 1, 0)
      else if 1 < (b * free + f) / e then (Scalar.clamp ((b - c) / a) 0 1, 1)
      else (free, (b * free + f) / e)) :
    Rests chosen.1 (a * chosen.1 - b * chosen.2 + c) ∧
      Rests chosen.2 (e * chosen.2 - b * chosen.1 - f) := by
  split_ifs at hchosen with hlow hhigh <;> subst hchosen
  · rw [div_lt_iff₀ he, zero_mul] at hlow
    have hfixed := Rests.clamp ha (-c)
    have hside := (side_of_moved he hdet hfree hfixed).1 hlow
    exact ⟨by simpa using hfixed, .zero (by linarith)⟩
  · rw [lt_div_iff₀ he, one_mul] at hhigh
    -- Seen from the second end of its segment, the second parameter is fixed at zero again.
    have hfree' : Rests free ((a * e - b * b) * free - (b * (f - e) - (c - b) * e)) := by
      rwa [show b * (f - e) - (c - b) * e = b * f - c * e by ring]
    have hfixed := Rests.clamp ha (b - c)
    have hside := (side_of_moved he hdet hfree' (by rwa [neg_sub])).2 (by linarith)
    exact ⟨by simpa [sub_add] using hfixed, .one (by linarith)⟩
  · refine ⟨⟨hfree.nonneg, hfree.le_one, fun u hu hu' ↦ ?_⟩, ?_⟩
    · have hslope : a * free - b * ((b * free + f) / e) + c =
          ((a * e - b * b) * free - (b * f - c * e)) / e := by
        field_simp
        ring
      show 0 ≤ (u - free) * (a * free - b * ((b * free + f) / e) + c)
      rw [hslope, ← mul_div_assoc]
      exact div_nonneg (hfree.uphill u hu hu') he.le
    · show Rests ((b * free + f) / e) (e * ((b * free + f) / e) - b * free - f)
      rw [mul_div_cancel₀ _ he.ne', add_sub_cancel_left, sub_self]
      exact .of_level (not_lt.mp hlow) (not_lt.mp hhigh)

end Rests

namespace Segment

/-! ### Points nearest to each other -/

/-- Neither of two points at the given parameters comes closer to the other one by moving along its
segment. -/
structure Nearest (first second : Segment ℝ) (s t : ℝ) : Prop where
  first_rests : Rests s (first.extent.dot (first.point s - second.point t))
  second_rests : Rests t (-(second.extent.dot (first.point s - second.point t)))

variable {first second : Segment ℝ}

/-- Points neither of which comes closer to the other one by moving alone are as close as the
segments are. -/
theorem Nearest.norm_le {s t u v : ℝ} (h : first.Nearest second s t) (hu : 0 ≤ u) (hu' : u ≤ 1)
    (hv : 0 ≤ v) (hv' : v ≤ 1) :
    ‖first.point s - second.point t‖ ≤ ‖first.point u - second.point v‖ := by
  refine Vec3.norm_le_of_dot_le ?_
  have hfirst := h.first_rests.uphill u hu hu'
  have hsecond := h.second_rests.uphill v hv hv'
  have hway : first.point u - second.point v = first.point s - second.point t +
      ((u - s) • first.extent - (v - t) • second.extent) := by
    simp only [point, Vec3.mul_eq_smul]
    module
  generalize first.point s - second.point t = w at *
  rw [hway, Vec3.dot_add, Vec3.dot_sub, Vec3.dot_smul, Vec3.dot_smul,
    Vec3.dot_comm w first.extent, Vec3.dot_comm w second.extent]
  linarith

/-- The slopes of the squared distance, halved. -/
theorem dot_point_sub_point (first second : Segment ℝ) (s t : ℝ) :
    first.extent.dot (first.point s - second.point t) =
        first.extent.normSq * s - first.extent.dot second.extent * t +
          first.extent.dot (first.start - second.start) ∧
      -(second.extent.dot (first.point s - second.point t)) =
        second.extent.normSq * t - first.extent.dot second.extent * s -
          second.extent.dot (first.start - second.start) := by
  have hway : first.point s - second.point t =
      s • first.extent - t • second.extent + (first.start - second.start) := by
    simp only [point, Vec3.mul_eq_smul]
    module
  rw [hway]
  simp only [Vec3.normSq, Vec3.dot_add, Vec3.dot_sub, Vec3.dot_smul,
    Vec3.dot_comm second.extent first.extent]
  constructor <;> ring

/-! ### Parallel lines -/

/-- The Gram determinant of two vectors, which vanishes if they are parallel. -/
noncomputable def gram (v w : Vec3 ℝ) : ℝ := v.normSq * w.normSq - v.dot w * v.dot w

theorem gram_eq (v w : Vec3 ℝ) : gram v w = (v.cross w).dot (v.cross w) :=
  (Vec3.cross_dot_self v w).symm

theorem gram_nonneg (v w : Vec3 ℝ) : 0 ≤ gram v w := by
  rw [gram_eq]
  exact Vec3.dot_self_nonneg _

/-- Parallel vectors measure a third one in the ratio of their lengths. -/
theorem dot_mul_dot_of_parallel {v w : Vec3 ℝ} (h : gram v w = 0) (r : Vec3 ℝ) :
    v.dot w * w.dot r = v.dot r * w.normSq := by
  rw [gram_eq] at h
  obtain ⟨e, s, t, rfl, rfl⟩ := Vec3.exists_common_line (Vec3.eq_zero_of_dot_self h)
  simp only [Vec3.normSq, Vec3.smul_dot, Vec3.dot_smul]
  ring

/-! ### The parameters that are found -/

/-- Both segments are long enough to count as such, and their lines are parallel or differ by more
than the tolerance. -/
structure Clear (first second : Segment ℝ) : Prop where
  first_long : negligible < first.extent.normSq
  second_long : negligible < second.extent.normSq
  angle : gram first.extent second.extent = 0 ∨ negligible < gram first.extent second.extent

/-- The first parameter of the closest points of the lines, moved into the first segment, rests
while the second one follows it freely. -/
theorem Clear.free_rests (h : first.Clear second) :
    let b := first.extent.dot second.extent
    let r := first.start - second.start
    let n := b * second.extent.dot r - first.extent.dot r * second.extent.normSq
    let free := if negligible < gram first.extent second.extent then
      Scalar.clamp (n / gram first.extent second.extent) 0 1 else 0
    Rests free (gram first.extent second.extent * free - n) := by
  intro b r n free
  rcases h.angle with hparallel | hclear
  · have hlevel : n = 0 := sub_eq_zero.mpr (dot_mul_dot_of_parallel hparallel r)
    rw [hparallel, hlevel, zero_mul, sub_zero]
    simp only [free, hparallel, not_lt.mpr negligible_nonneg, if_false]
    exact .of_level (le_refl 0) zero_le_one
  · simp only [free, if_pos hclear]
    exact .clamp (negligible_nonneg.trans_lt hclear) n

/-- The parameters that are found are those of points nearest to each other. -/
theorem closestParameters_nearest (h : first.Clear second) :
    first.Nearest second (closestParameters first second).1
      (closestParameters first second).2 := by
  have hmoved := Rests.pair_of_moved (negligible_nonneg.trans_lt h.first_long)
    (negligible_nonneg.trans_lt h.second_long) (gram_nonneg first.extent second.extent)
    h.free_rests (closestParameters first second) (by
      simp only [closestParameters, gram, not_le.mpr h.first_long, not_le.mpr h.second_long,
        if_false, false_and, Scalar.zero_real, Scalar.one_real]
      -- What is left differs in the decision procedures only.
      rfl)
  have hslopes := dot_point_sub_point first second (closestParameters first second).1
    (closestParameters first second).2
  exact ⟨by rw [hslopes.1]; exact hmoved.1, by rw [hslopes.2]; exact hmoved.2⟩

/-- The points that are found lie on the segments, and no two points of the segments are closer. -/
theorem closestPoints_least (h : first.Clear second) :
    (closestPoints first second).1 ∈ first.points ∧
      (closestPoints first second).2 ∈ second.points ∧
      ∀ p ∈ first.points, ∀ q ∈ second.points,
        ‖(closestPoints first second).1 - (closestPoints first second).2‖ ≤ ‖p - q‖ := by
  have hnearest := closestParameters_nearest h
  refine ⟨⟨_, hnearest.first_rests.nonneg, hnearest.first_rests.le_one, rfl⟩,
    ⟨_, hnearest.second_rests.nonneg, hnearest.second_rests.le_one, rfl⟩, ?_⟩
  rintro _ ⟨u, hu, hu', rfl⟩ _ ⟨v, hv, hv', rfl⟩
  exact hnearest.norm_le hu hu' hv hv'

/-! ### Distance -/

/-- The distance of two segments. -/
noncomputable def distance (first second : Segment ℝ) : ℝ :=
  sInf (Set.image2 (fun p q ↦ ‖p - q‖) first.points second.points)

theorem distance_eq (h : first.Clear second) : first.distance second =
    ‖(closestPoints first second).1 - (closestPoints first second).2‖ := by
  obtain ⟨hfirst, hsecond, hleast⟩ := closestPoints_least h
  refine IsLeast.csInf_eq ⟨Set.mem_image2_of_mem hfirst hsecond, ?_⟩
  rintro _ ⟨p, hp, q, hq, rfl⟩
  exact hleast p hp q hq

theorem distance_le {p q : Vec3 ℝ} (hp : p ∈ first.points) (hq : q ∈ second.points) :
    first.distance second ≤ ‖p - q‖ := by
  refine csInf_le ⟨0, ?_⟩ (Set.mem_image2_of_mem hp hq)
  rintro _ ⟨p, -, q, -, rfl⟩
  exact norm_nonneg _

end Segment

namespace Round

/-- The closest points of two segments lie on them, and no points of the segments are closer; if the
first segment is a point, the second point is the point of the other segment nearest to it. Two
capsules are in contact exactly if their cores are closer than the radii together. -/
theorem closest_of_segments_and_capsules :
    (∀ first second : Segment ℝ, first.Clear second →
      (first.closestPoints second).1 ∈ first.points ∧
        (first.closestPoints second).2 ∈ second.points ∧
        ∀ p ∈ first.points, ∀ q ∈ second.points,
          ‖(first.closestPoints second).1 - (first.closestPoints second).2‖ ≤ ‖p - q‖) ∧
    (∀ (p : Vec3 ℝ) (second : Segment ℝ), Segment.negligible < second.extent.normSq →
      (Segment.closestPoints ⟨p, p⟩ second).2 ∈ second.points ∧
        ∀ q ∈ second.points, ‖(Segment.closestPoints ⟨p, p⟩ second).2 - p‖ ≤ ‖q - p‖) ∧
    ∀ (r1 halfHeight1 : ℝ) (pose1 : Pose ℝ) (r2 halfHeight2 : ℝ) (pose2 : Pose ℝ),
      (capsuleCore halfHeight1 pose1).Clear (capsuleCore halfHeight2 pose2) →
      (capsuleCapsule r1 halfHeight1 pose1 r2 halfHeight2 pose2 ≠ [] ↔
        (capsuleCore halfHeight1 pose1).distance (capsuleCore halfHeight2 pose2) < r1 + r2) := by
  refine ⟨fun first second h ↦ Segment.closestPoints_least h, fun p second hlong ↦ ?_, ?_⟩
  · have hclosest := Segment.isClosest_closestPoints p hlong
    exact ⟨hclosest.1, fun q hq ↦ hclosest.norm_le hq⟩
  · intro r1 halfHeight1 pose1 r2 halfHeight2 pose2 h
    rw [Segment.distance_eq h]
    exact contact_ne_nil_iff _ _ _ _ _

/-- Two segments that cross at right angles, one length apart, and two parallel capsules of radius
one beside each other, one length apart. -/
theorem closest_of_crossing_segments_and_parallel_capsules :
    let along : Segment ℝ := ⟨⟨-1, 0, 0⟩, ⟨1, 0, 0⟩⟩
    let above : Segment ℝ := ⟨⟨0, -1, 1⟩, ⟨0, 1, 1⟩⟩
    let aside : Pose ℝ := .ofPosition ⟨1, 0, 0⟩
    along.Clear above ∧ (capsuleCore 1 .identity).Clear (capsuleCore 1 aside) ∧
      ‖(along.closestPoints above).1 - (along.closestPoints above).2‖ ≤ 1 ∧
      ‖(Segment.closestPoints ⟨0, 0⟩ above).2‖ ≤ 1 ∧
      capsuleCapsule 1 1 .identity 1 1 aside ≠ [] := by
  intro along above aside
  have hnegligible : (Segment.negligible : ℝ) < 4 := by
    rw [Segment.negligible_eq]
    norm_num
  have hcross : along.Clear above := by
    refine ⟨?_, ?_, .inr ?_⟩ <;> refine hnegligible.trans_le ?_ <;>
      norm_num [Segment.gram, Segment.extent, Vec3.normSq, Vec3.dot_eq, along, above]
  have haside : aside.Rigid := Pose.identity_rigid
  have hlong {pose : Pose ℝ} (hpose : pose.Rigid) :
      Segment.negligible < (capsuleCore 1 pose).extent.normSq := by
    refine hnegligible.trans_le ?_
    rw [capsuleCore_normSq 1 hpose]
    norm_num
  have hparallel : (capsuleCore 1 .identity).Clear (capsuleCore 1 aside) := by
    refine ⟨hlong Pose.identity_rigid, hlong haside, .inl ?_⟩
    rw [capsuleCore_extent, capsuleCore_extent]
    exact sub_self _
  have hmiddle : (⟨0, 0, 1⟩ : Vec3 ℝ) ∈ above.points := by
    refine ⟨1 / 2, by norm_num, by norm_num, ?_⟩
    ext <;> norm_num [Segment.point, Segment.extent, Vec3.mul_eq_smul, above]
  have horigin : (0 : Vec3 ℝ) ∈ along.points := by
    refine ⟨1 / 2, by norm_num, by norm_num, ?_⟩
    ext <;> norm_num [Segment.point, Segment.extent, Vec3.mul_eq_smul, along]
  have hunit {v : Vec3 ℝ} (hv : v.dot v = 1) : ‖v‖ = 1 := Vec3.IsDirection.norm_eq hv
  obtain ⟨hsegments, hpoint, hcapsules⟩ := closest_of_segments_and_capsules
  refine ⟨hcross, hparallel, ?_, ?_, (hcapsules 1 1 .identity 1 1 aside hparallel).mpr ?_⟩
  · refine ((hsegments along above hcross).2.2 _ horigin _ hmiddle).trans_eq (hunit ?_)
    norm_num [Vec3.dot_eq]
  · have hle := (hpoint 0 above hcross.second_long).2 _ hmiddle
    rw [sub_zero, sub_zero] at hle
    refine hle.trans_eq (hunit ?_)
    norm_num [Vec3.dot_eq]
  · have hstart (pose : Pose ℝ) : (capsuleCore 1 pose).start ∈ (capsuleCore 1 pose).points := by
      refine ⟨0, le_refl 0, zero_le_one, ?_⟩
      rw [Segment.point, Vec3.mul_eq_smul, zero_smul, add_zero]
    have hapart : (capsuleCore 1 .identity).start - (capsuleCore 1 aside).start =
        Vec3.zero - ⟨1, 0, 0⟩ := sub_sub_sub_cancel_right _ _ _
    refine (Segment.distance_le (hstart _) (hstart _)).trans_lt ?_
    rw [hapart, hunit (by norm_num [Vec3.dot_eq, Vec3.zero_eq])]
    norm_num

end Round

end Collision
