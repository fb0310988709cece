import Collision.Proofs.Pair.Capsules
import Collision.Proofs.Pair.ClosedForms

/-!
# Two capsules in either order

`Segment.closestParameters` treats the first segment specially, so that two capsules may collide in
one order and not in the other. The points that are found always lie on the cores; so if one order
reports a collision, the cores are closer than the radii together, and an order that disagrees has
missed a collision.

The orders agree where the points are really closest, and where a core counts as its first end
(`Segment.found_comm`). What is left are `Segment.Blurred` cores. Lines count as parallel if their
Gram determinant, a product of four lengths, is at most the squared length that counts as zero. That
holds of lines that are almost parallel, but also of short cores at any angle: then the first point
stays where its segment begins. How far off this is depends on how the distance from the line of
the second core changes along the first (`Segment.norm_sub_foot_le`), whether or not the second
point has to be stopped (`Segment.norm_stopped_le`).

* `PairTester.collide_capsules_exchanged` says when the verdicts agree, and what a tester misses.
* `PairTester.small_capsules_collide_in_one_order` are two capsules that overlap by two thirds of
  their radii together, and for which the orders differ.
-/

set_option autoImplicit false
set_option relaxedAutoImplicit false

namespace Collision

namespace Segment

variable {first second : Segment ℝ}

/-! ### The points that are found -/

/-- The distance of the points that are found closest. -/
noncomputable def found (first second : Segment ℝ) : ℝ :=
  ‖(closestPoints first second).1 - (closestPoints first second).2‖

theorem clamp_mem_unit (x : ℝ) : 0 ≤ Scalar.clamp x 0 1 ∧ Scalar.clamp x 0 1 ≤ 1 := by
  unfold Scalar.clamp
  split_ifs with hlow hhigh
  · exact ⟨le_rfl, zero_le_one⟩
  · exact ⟨zero_le_one, le_rfl⟩
  · exact ⟨not_lt.mp hlow, not_lt.mp hhigh⟩

/-- The points that are found lie on the segments, whatever their lengths and angle. -/
theorem closestPoints_mem (first second : Segment ℝ) :
    (closestPoints first second).1 ∈ first.points ∧
      (closestPoints first second).2 ∈ second.points := by
  have hzero : (0 : ℝ) ≤ 0 ∧ (0 : ℝ) ≤ 1 := ⟨le_rfl, zero_le_one⟩
  have hone : (0 : ℝ) ≤ 1 ∧ (1 : ℝ) ≤ 1 := ⟨zero_le_one, le_rfl⟩
  have hparameters : (0 ≤ (closestParameters first second).1 ∧
      (closestParameters first second).1 ≤ 1) ∧ 0 ≤ (closestParameters first second).2 ∧
        (closestParameters first second).2 ≤ 1 := by
    simp only [closestParameters, Scalar.zero_real, Scalar.one_real]
    split_ifs <;> simp only [clamp_mem_unit, hzero, hone, and_self, true_and]
    -- What is left are the second parameters that did not have to be moved.
    all_goals exact ⟨not_lt.mp ‹_›, not_lt.mp ‹_›⟩
  exact ⟨⟨_, hparameters.1.1, hparameters.1.2, rfl⟩, ⟨_, hparameters.2.1, hparameters.2.2, rfl⟩⟩

theorem distance_le_found (first second : Segment ℝ) :
    first.distance second ≤ found first second :=
  distance_le (closestPoints_mem first second).1 (closestPoints_mem first second).2

theorem le_distance_add {bound slack : ℝ} (h : ∀ u v : ℝ, 0 ≤ u → u ≤ 1 → 0 ≤ v → v ≤ 1 →
    bound ≤ ‖first.point u - second.point v‖ + slack) : bound ≤ first.distance second + slack := by
  have hends := closestPoints_mem first second
  rw [← sub_le_iff_le_add]
  refine le_csInf ⟨_, Set.mem_image2_of_mem hends.1 hends.2⟩ ?_
  rintro _ ⟨_, ⟨u, hu, hu', rfl⟩, _, ⟨v, hv, hv', rfl⟩, rfl⟩
  rw [sub_le_iff_le_add]
  exact h u v hu hu' hv hv'

theorem distance_comm (first second : Segment ℝ) :
    first.distance second = second.distance first := by
  rw [distance, distance, Set.image2_swap]
  simp only [norm_sub_rev]

/-! ### Segments that are found alike in either order -/

theorem gram_comm (v w : Vec3 ℝ) : gram v w = gram w v := by
  rw [gram, gram, Vec3.dot_comm, mul_comm w.normSq]

theorem Clear.symm (h : first.Clear second) : second.Clear first :=
  ⟨h.second_long, h.first_long, gram_comm first.extent second.extent ▸ h.angle⟩

/-- If a segment counts as its first end, the parameters are the same in either order. -/
theorem closestParameters_swap_of_short
    (h : first.extent.normSq ≤ negligible ∨ second.extent.normSq ≤ negligible) :
    closestParameters second first = (closestParameters first second).swap := by
  have hback (v : Vec3 ℝ) :
      v.dot (second.start - first.start) = -v.dot (first.start - second.start) := by
    rw [← neg_sub, Vec3.dot_neg]
  by_cases hfirst : first.extent.normSq ≤ negligible <;>
    by_cases hsecond : second.extent.normSq ≤ negligible
  · simp [closestParameters, hfirst, hsecond]
  · simp [closestParameters, hfirst, hsecond, hback]
  · simp [closestParameters, hfirst, hsecond, hback]
  · exact absurd h (not_or.mpr ⟨hfirst, hsecond⟩)

/-- The segments are long enough to count as such, and their lines are not parallel but differ by no
more than the tolerance. -/
structure Blurred (first second : Segment ℝ) : Prop where
  first_long : negligible < first.extent.normSq
  second_long : negligible < second.extent.normSq
  gram_pos : 0 < gram first.extent second.extent
  gram_le : gram first.extent second.extent ≤ negligible

theorem Blurred.symm (h : first.Blurred second) : second.Blurred first := by
  have hgram := gram_comm first.extent second.extent
  exact ⟨h.second_long, h.first_long, hgram ▸ h.gram_pos, hgram ▸ h.gram_le⟩

theorem norm_extent_pos {s : Segment ℝ} (h : negligible < s.extent.normSq) : 0 < ‖s.extent‖ := by
  rw [Vec3.norm_eq_sqrt_dot]
  exact Real.sqrt_pos.mpr (negligible_nonneg.trans_lt h)

theorem found_comm (h : ¬ first.Blurred second) : found first second = found second first := by
  by_cases hshort : first.extent.normSq ≤ negligible ∨ second.extent.normSq ≤ negligible
  · simp only [found, closestPoints, closestParameters_swap_of_short hshort, Prod.fst_swap,
      Prod.snd_swap]
    exact norm_sub_rev _ _
  · obtain ⟨hfirst, hsecond⟩ := not_or.mp hshort
    have hclear : first.Clear second := by
      refine ⟨not_le.mp hfirst, not_le.mp hsecond, ?_⟩
      by_contra! hangle
      exact h ⟨not_le.mp hfirst, not_le.mp hsecond,
        (gram_nonneg _ _).lt_of_ne hangle.1.symm, hangle.2⟩
    rw [found, found, ← distance_eq hclear, ← distance_eq hclear.symm, distance_comm]

/-! ### How far off the points are -/

/-- The parameter of the point on the line of the second segment nearest to a point of the first. -/
noncomputable def foot (first second : Segment ℝ) (s : ℝ) : ℝ :=
  (first.extent.dot second.extent * s + second.extent.dot (first.start - second.start)) /
    second.extent.normSq

section Foot

variable (hlong : negligible < second.extent.normSq)

include hlong

/-- How the second segment measures the way between two points of the segments. -/
theorem dot_point_sub_point_eq (s t : ℝ) : second.extent.dot (first.point s - second.point t) =
    second.extent.normSq * (foot first second s - t) := by
  have hpos := (negligible_nonneg.trans_lt hlong).ne'
  have hslope := (dot_point_sub_point first second s t).2
  rw [foot, mul_sub, mul_div_cancel₀ _ hpos]
  linarith

/-- On the line of the second segment, points farther from the foot are farther away. -/
theorem norm_le_of_foot {s t v : ℝ} (h : 0 ≤ (t - v) * (foot first second s - t)) :
    ‖first.point s - second.point t‖ ≤ ‖first.point s - second.point v‖ := by
  refine Vec3.norm_le_of_dot_le ?_
  have hway : first.point s - second.point v =
      first.point s - second.point t + (t - v) • second.extent := by
    simp only [point, Vec3.mul_eq_smul]
    module
  have hpos := negligible_nonneg.trans hlong.le
  rw [hway, Vec3.dot_add, Vec3.dot_smul, Vec3.dot_comm _ second.extent,
    dot_point_sub_point_eq hlong]
  nlinarith [mul_nonneg hpos h]

/-- Along the first segment the distance from the line of the second one changes slowly. -/
theorem norm_sub_foot_le {s u : ℝ} (h : |s - u| ≤ 1) :
    ‖first.point s - second.point (foot first second s)‖ ≤
      ‖first.point u - second.point (foot first second u)‖ +
        √(gram first.extent second.extent) / ‖second.extent‖ := by
  have hpos := negligible_nonneg.trans_lt hlong
  let drift : Vec3 ℝ :=
    first.extent - (first.extent.dot second.extent / second.extent.normSq) • second.extent
  have hway : first.point s - second.point (foot first second s) =
      first.point u - second.point (foot first second u) + (s - u) • drift := by
    have hfeet : foot first second s = foot first second u +
        (s - u) * (first.extent.dot second.extent / second.extent.normSq) := by
      rw [foot, foot]
      ring
    simp only [hfeet, drift, point, Vec3.mul_eq_smul]
    module
  have hdrift : ‖drift‖ = √(gram first.extent second.extent) / ‖second.extent‖ := by
    rw [Vec3.norm_eq_sqrt_dot, Vec3.norm_eq_sqrt_dot, ← Real.sqrt_div (gram_nonneg _ _)]
    congr 1
    show drift.dot drift = _ / second.extent.normSq
    simp only [drift, gram, Vec3.sub_dot, Vec3.dot_sub, Vec3.smul_dot, Vec3.dot_smul,
      Vec3.dot_comm second.extent first.extent]
    rw [← Vec3.normSq, ← Vec3.normSq]
    field_simp
    ring
  rw [hway]
  refine (norm_add_le _ _).trans (add_le_add_right ?_ _)
  rw [norm_smul, ← hdrift]
  exact mul_le_of_le_one_left (norm_nonneg _) h

/-- The second parameter was stopped on the way to the foot of the first point, and the first one
chosen anew. -/
theorem norm_stopped_le {stop chosen : ℝ}
    (hstart : ∀ v, 0 ≤ v → v ≤ 1 → 0 ≤ (stop - v) * (foot first second 0 - stop))
    (hchosen : Rests chosen (first.extent.dot (first.point chosen - second.point stop)))
    {u v : ℝ} (hu : 0 ≤ u) (hu' : u ≤ 1) (hv : 0 ≤ v) (hv' : v ≤ 1) :
    ‖first.point chosen - second.point stop‖ ≤ ‖first.point u - second.point v‖ +
      √(gram first.extent second.extent) / ‖second.extent‖ := by
  have hleast {s : ℝ} (hs : 0 ≤ s) (hs' : s ≤ 1) :
      ‖first.point chosen - second.point stop‖ ≤ ‖first.point s - second.point stop‖ := by
    refine Vec3.norm_le_of_dot_le ?_
    have hway : first.point s - second.point stop =
        first.point chosen - second.point stop + (s - chosen) • first.extent := by
      simp only [point, Vec3.mul_eq_smul]
      module
    rw [hway, Vec3.dot_add, Vec3.dot_smul, Vec3.dot_comm _ first.extent]
    linarith [hchosen.uphill s hs hs']
  have hslack : 0 ≤ √(gram first.extent second.extent) / ‖second.extent‖ := by positivity
  rcases le_or_gt 0 ((stop - v) * (foot first second u - stop)) with hbeyond | hpassed
  · linarith [hleast hu hu', norm_le_of_foot hlong hbeyond]
  · -- Between the start of the first segment and its point at `u` the foot passes the stop.
    have hbetween : stop ∈ Set.uIcc (foot first second 0) (foot first second u) := by
      rw [Set.mem_uIcc]
      have hbefore := hstart v hv hv'
      rcases lt_trichotomy stop v with hbelow | rfl | habove
      · exact .inl ⟨by nlinarith, by nlinarith⟩
      · simp at hpassed
      · exact .inr ⟨by nlinarith, by nlinarith⟩
    have hcontinuous : Continuous (foot first second) := by
      unfold foot
      fun_prop
    obtain ⟨s, hs, hfoot⟩ := intermediate_value_uIcc hcontinuous.continuousOn hbetween
    rw [Set.uIcc_of_le hu, Set.mem_Icc] at hs
    have hnear := hleast hs.1 (hs.2.trans hu')
    have hturn : ‖first.point s - second.point (foot first second s)‖ ≤ _ :=
      norm_sub_foot_le hlong (abs_le.mpr ⟨by linarith, by linarith⟩ : |s - u| ≤ 1)
    have hdown : ‖first.point u - second.point (foot first second u)‖ ≤
        ‖first.point u - second.point v‖ :=
      norm_le_of_foot hlong (by rw [sub_self, mul_zero])
    rw [hfoot] at hturn
    linarith

end Foot

/-- The first point stays at the first end unless the second one has to be stopped. -/
theorem Blurred.closestParameters_eq (h : first.Blurred second) :
    closestParameters first second = if foot first second 0 < 0 then
      (Scalar.clamp (-first.extent.dot (first.start - second.start) / first.extent.normSq) 0 1, 0)
    else if 1 < foot first second 0 then
      (Scalar.clamp ((first.extent.dot second.extent -
        first.extent.dot (first.start - second.start)) / first.extent.normSq) 0 1, 1)
    else (0, foot first second 0) := by
  have hgram : ¬ negligible < first.extent.normSq * second.extent.normSq -
      first.extent.dot second.extent * first.extent.dot second.extent := not_lt.mpr h.gram_le
  simp only [closestParameters, foot, not_le.mpr h.first_long, not_le.mpr h.second_long, hgram,
    if_false, false_and, Scalar.zero_real, Scalar.one_real]
  rfl

theorem Blurred.found_eq (h : first.Blurred second) (hfoot : 0 ≤ foot first second 0)
    (hfoot' : foot first second 0 ≤ 1) :
    found first second = ‖first.point 0 - second.point (foot first second 0)‖ := by
  rw [found, closestPoints, h.closestParameters_eq, if_neg hfoot.not_gt, if_neg hfoot'.not_gt]

/-- The points that are found for blurred segments are almost as close as the segments are. -/
theorem Blurred.found_le (h : first.Blurred second) : found first second ≤
    first.distance second + √(gram first.extent second.extent) / ‖second.extent‖ := by
  have ha := negligible_nonneg.trans_lt h.first_long
  refine le_distance_add fun u v hu hu' hv hv' ↦ ?_
  rw [found, closestPoints, h.closestParameters_eq]
  split_ifs with hlow hhigh
  · refine norm_stopped_le h.second_long (fun v hv _ ↦ ?_) ?_ hu hu' hv hv'
    · rw [zero_sub, sub_zero]
      exact mul_nonneg_of_nonpos_of_nonpos (neg_nonpos.mpr hv) hlow.le
    · rw [(dot_point_sub_point first second _ 0).1, mul_zero, sub_zero]
      simpa only [sub_neg_eq_add] using Rests.clamp ha
        (-first.extent.dot (first.start - second.start))
  · refine norm_stopped_le h.second_long (fun v _ hv ↦ ?_) ?_ hu hu' hv hv'
    · exact mul_nonneg (sub_nonneg.mpr hv) (sub_nonneg.mpr hhigh.le)
    · rw [(dot_point_sub_point first second _ 1).1, mul_one]
      simpa only [sub_add] using Rests.clamp ha
        (first.extent.dot second.extent - first.extent.dot (first.start - second.start))
  · have hturn : ‖first.point 0 - second.point (foot first second 0)‖ ≤ _ :=
      norm_sub_foot_le h.second_long (by rwa [zero_sub, abs_neg, abs_of_nonneg hu] : |0 - u| ≤ 1)
    have hdown : ‖first.point u - second.point (foot first second u)‖ ≤
        ‖first.point u - second.point v‖ :=
      norm_le_of_foot h.second_long (by rw [sub_self, mul_zero])
    exact hturn.trans (add_le_add_left hdown _)

end Segment

/-! ### Verdicts -/

namespace Round

theorem capsuleCore_identity (halfHeight : ℝ) :
    capsuleCore halfHeight .identity = ⟨⟨0, 0, -halfHeight⟩, ⟨0, 0, halfHeight⟩⟩ := by
  simp [capsuleCore, Pose.axis, Pose.identity, Vec3.axis, Vec3.ofFn, Vec3.zero, Vec3.mul_eq_smul,
    Vec3.ext_iff, Vec3.replicate, Rotation.apply, Rotation.vector, Vec3.cross, Rotation.identity]

/-- The quaternion turns the z axis to the x axis. -/
theorem capsuleCore_lying (halfHeight y : ℝ) :
    capsuleCore halfHeight ⟨⟨0, y, 0⟩, ⟨1 / 2, 1 / 2, 1 / 2, 1 / 2⟩⟩ =
      ⟨⟨-halfHeight, y, 0⟩, ⟨halfHeight, y, 0⟩⟩ := by
  simp [capsuleCore, Pose.axis, Vec3.axis, Vec3.ofFn, Vec3.mul_eq_smul, Vec3.ext_iff,
    Rotation.apply, Rotation.vector, Vec3.cross]
  norm_num
  constructor <;> ring

end Round

namespace PairTester

section Capsules

variable (t : PairTester ℝ) (hcolliders : t.colliders = .empty) {a b : Part ℝ}
  {r1 halfHeight1 r2 halfHeight2 : ℝ} (ha : a.primitive = .capsule r1 halfHeight1)
  (hb : b.primitive = .capsule r2 halfHeight2) (poseA poseB : Pose ℝ)

include hcolliders ha hb

/-- Two capsules collide if the points found on their cores are closer than the radii together. -/
theorem collide_capsules_iff : t.collide ⟨.part a, poseA⟩ ⟨.part b, poseB⟩ = true ↔
    Segment.found (Round.capsuleCore halfHeight1 (a.rebase poseA))
      (Round.capsuleCore halfHeight2 (b.rebase poseB)) < r1 + r2 := by
  have hverdict : t.collide ⟨.part a, poseA⟩ ⟨.part b, poseB⟩ =
      !(Round.capsuleCapsule r1 halfHeight1 (a.rebase poseA) r2 halfHeight2
        (b.rebase poseB)).isEmpty := by
    rw [t.collide_parts hcolliders, ha, hb]
    rfl
  rw [hverdict, Bool.not_eq_true', List.isEmpty_eq_false_iff]
  exact Round.contact_ne_nil_iff _ _ _ _ _

/-- Two capsules of any size at any poses and with any offsets; a tester without overrides. In
neither order do they collide unless their cores are closer than the radii together. The verdict is
the same in either order unless the cores are blurred, and blurred cores collide in either order if
they are closer than the radii together by more than the square root of their Gram determinant over
the length of the shorter core. -/
theorem collide_capsules_exchanged :
    let first : Placed ℝ := ⟨.part a, poseA⟩
    let second : Placed ℝ := ⟨.part b, poseB⟩
    let coreA := Round.capsuleCore halfHeight1 (a.rebase poseA)
    let coreB := Round.capsuleCore halfHeight2 (b.rebase poseB)
    (t.collide first second = true ∨ t.collide second first = true →
        coreA.distance coreB < r1 + r2) ∧
      (¬ coreA.Blurred coreB → t.collide first second = t.collide second first) ∧
      (coreA.Blurred coreB → coreA.distance coreB +
          √(Segment.gram coreA.extent coreB.extent) / min ‖coreA.extent‖ ‖coreB.extent‖ < r1 + r2 →
        t.collide first second = true ∧ t.collide second first = true) := by
  intro first second coreA coreB
  have hverdict : t.collide first second = true ↔ coreA.found coreB < r1 + r2 :=
    t.collide_capsules_iff hcolliders ha hb poseA poseB
  have hreversed : t.collide second first = true ↔ coreB.found coreA < r1 + r2 := by
    rw [add_comm]
    exact t.collide_capsules_iff hcolliders hb ha poseB poseA
  have hfound := Segment.distance_le_found coreA coreB
  have hfoundReversed := Segment.distance_le_found coreB coreA
  rw [Segment.distance_comm] at hfoundReversed
  refine ⟨?_, fun hclear ↦ ?_, fun hblurred hnear ↦ ?_⟩
  · rintro (h | h)
    · exact hfound.trans_lt (hverdict.mp h)
    · exact hfoundReversed.trans_lt (hreversed.mp h)
  · rw [Bool.eq_iff_iff, hverdict, hreversed, Segment.found_comm hclear]
  · rw [hverdict, hreversed]
    have hle := hblurred.found_le
    have hleReversed := hblurred.symm.found_le
    rw [Segment.gram_comm, Segment.distance_comm] at hleReversed
    have hpos : 0 < min ‖coreA.extent‖ ‖coreB.extent‖ :=
      lt_min (Segment.norm_extent_pos hblurred.first_long)
        (Segment.norm_extent_pos hblurred.second_long)
    have hroot := Real.sqrt_nonneg (Segment.gram coreA.extent coreB.extent)
    have hslack {length : ℝ} (h : min ‖coreA.extent‖ ‖coreB.extent‖ ≤ length) :=
      div_le_div_of_nonneg_left hroot hpos h
    have hslackA := hslack (min_le_left _ _)
    have hslackB := hslack (min_le_right _ _)
    exact ⟨by linarith, by linarith⟩

end Capsules

/-- Two small capsules that cross, with radii of twice the longer core, and two parallel capsules of
radius one beside each other. -/
theorem collide_capsules_exchanged_of_crossing_and_parallel :
    let t : PairTester ℝ := { config := ⟨.standard, 4⟩ }
    let u : ℝ := 1 / 2 ^ 17
    let upright : Placed ℝ := ⟨.part (.bare (.capsule (4 * u) u)), .identity⟩
    let lying : Placed ℝ := ⟨.part (.bare (.capsule (4 * u) (2 * u))),
      ⟨⟨0, u / 2, 0⟩, ⟨1 / 2, 1 / 2, 1 / 2, 1 / 2⟩⟩⟩
    let near : Placed ℝ := ⟨.part (.bare (.capsule 1 1)), .identity⟩
    let aside : Placed ℝ := ⟨.part (.bare (.capsule 1 1)), .ofPosition ⟨1, 0, 0⟩⟩
    t.colliders = .empty ∧ t.collide upright lying = true ∧ t.collide lying upright = true ∧
      t.collide near aside = t.collide aside near := by
  intro t u upright lying near aside
  have hu : 0 < u := by positivity
  obtain ⟨-, -, hblurred⟩ := t.collide_capsules_exchanged rfl
    (rfl : (Part.bare (.capsule (4 * u) u)).primitive = _)
    (rfl : (Part.bare (.capsule (4 * u) (2 * u))).primitive = _) .identity
    ⟨⟨0, u / 2, 0⟩, ⟨1 / 2, 1 / 2, 1 / 2, 1 / 2⟩⟩
  obtain ⟨-, hclear, -⟩ := t.collide_capsules_exchanged rfl
    (rfl : (Part.bare (.capsule (1 : ℝ) 1)).primitive = _)
    (rfl : (Part.bare (.capsule (1 : ℝ) 1)).primitive = _) .identity (.ofPosition ⟨1, 0, 0⟩)
  simp only [Part.rebase, Round.capsuleCore_identity, Round.capsuleCore_lying] at hblurred
  let coreA : Segment ℝ := ⟨⟨0, 0, -u⟩, ⟨0, 0, u⟩⟩
  let coreB : Segment ℝ := ⟨⟨-(2 * u), u / 2, 0⟩, ⟨2 * u, u / 2, 0⟩⟩
  have hsmall : coreA.Blurred coreB := by
    constructor <;> norm_num [Segment.negligible_eq, Segment.extent, Segment.gram, Vec3.normSq,
      Vec3.dot_eq, coreA, coreB, u]
  have hdistance : coreA.distance coreB ≤ u / 2 := by
    have hmiddle {s : Segment ℝ} : s.point (1 / 2) ∈ s.points :=
      ⟨1 / 2, by norm_num, by norm_num, rfl⟩
    refine (Segment.distance_le hmiddle hmiddle).trans ?_
    rw [Vec3.norm_eq_sqrt_dot, Real.sqrt_le_left (by positivity)]
    norm_num [Segment.point, Segment.extent, Vec3.mul_eq_smul, Vec3.dot_eq, coreA, coreB, u]
  have hslack : √(Segment.gram coreA.extent coreB.extent) / min ‖coreA.extent‖ ‖coreB.extent‖ ≤
      4 * u := by
    have hlength : 2 * u ≤ min ‖coreA.extent‖ ‖coreB.extent‖ := by
      refine le_min ?_ ?_ <;> rw [Vec3.norm_eq_sqrt_dot] <;> refine Real.le_sqrt_of_sq_le ?_ <;>
        norm_num [Segment.extent, Vec3.dot_eq, coreA, coreB, u]
    have hroot : √(Segment.gram coreA.extent coreB.extent) ≤ 8 * u * u := by
      rw [Real.sqrt_le_left (by positivity)]
      norm_num [Segment.extent, Segment.gram, Vec3.normSq, Vec3.dot_eq, coreA, coreB, u]
    rw [div_le_iff₀ (by linarith)]
    nlinarith
  have hclose : coreA.distance coreB + √(Segment.gram coreA.extent coreB.extent) /
      min ‖coreA.extent‖ ‖coreB.extent‖ < 4 * u + 4 * u := by
    linarith
  have hboth := hblurred hsmall hclose
  refine ⟨rfl, hboth.1, hboth.2, hclear fun hparallel ↦ ?_⟩
  have hgram := hparallel.gram_pos
  norm_num [Round.capsuleCore_extent, Segment.gram, Vec3.normSq, Part.rebase, Pose.axis,
    Pose.identity, Pose.ofPosition] at hgram

/-- A capsule with a core of two units along z and one with a core of four units along x, half a
unit beside it. Both have a radius of three quarters of a unit, so that they overlap by a whole
unit. If the unit is small they collide in one order and not in the other. -/
theorem small_capsules_collide_in_one_order :
    let t : PairTester ℝ := { config := ⟨.standard, 4⟩ }
    let u : ℝ := 1 / 2 ^ 17
    let a : Part ℝ := .bare (.capsule (3 / 4 * u) u)
    let b : Part ℝ := .bare (.capsule (3 / 4 * u) (2 * u))
    let poseB : Pose ℝ := ⟨⟨0, u / 2, 0⟩, ⟨1 / 2, 1 / 2, 1 / 2, 1 / 2⟩⟩
    Primitive.capsule? (3 / 4 * u) (2 * u) = .ok a.primitive ∧
      Primitive.capsule? (3 / 4 * u) (4 * u) = .ok b.primitive ∧ poseB.Rigid ∧
      t.collide ⟨.part a, .identity⟩ ⟨.part b, poseB⟩ = true ∧
      t.collide ⟨.part b, poseB⟩ ⟨.part a, .identity⟩ = false := by
  intro t u a b poseB
  have hu : 0 < u := by positivity
  let coreA : Segment ℝ := ⟨⟨0, 0, -u⟩, ⟨0, 0, u⟩⟩
  let coreB : Segment ℝ := ⟨⟨-(2 * u), u / 2, 0⟩, ⟨2 * u, u / 2, 0⟩⟩
  have hcoreA : Round.capsuleCore u Pose.identity = coreA := Round.capsuleCore_identity u
  have hcoreB : Round.capsuleCore (2 * u) poseB = coreB := Round.capsuleCore_lying _ _
  have hblurred : coreA.Blurred coreB := by
    constructor <;> norm_num [Segment.negligible_eq, Segment.extent, Segment.gram, Vec3.normSq,
      Vec3.dot_eq, coreA, coreB, u]
  have hfoot : coreA.foot coreB 0 = 1 / 2 ∧ coreB.foot coreA 0 = 1 / 2 := by
    norm_num [Segment.foot, Segment.extent, Vec3.normSq, Vec3.dot_eq, coreA, coreB, u]
  have hnear : coreA.found coreB < 3 / 4 * u + 3 / 4 * u := by
    rw [hblurred.found_eq (by norm_num [hfoot.1]) (by norm_num [hfoot.1]), hfoot.1,
      Vec3.norm_eq_sqrt_dot, Real.sqrt_lt' (by positivity)]
    norm_num [Segment.point, Segment.extent, Vec3.mul_eq_smul, Vec3.dot_eq, coreA, coreB, u]
  have hfar : ¬ coreB.found coreA < 3 / 4 * u + 3 / 4 * u := by
    rw [hblurred.symm.found_eq (by norm_num [hfoot.2]) (by norm_num [hfoot.2]), hfoot.2,
      Vec3.norm_eq_sqrt_dot, Real.sqrt_lt' (by positivity)]
    norm_num [Segment.point, Segment.extent, Vec3.mul_eq_smul, Vec3.dot_eq, coreA, coreB, u]
  have hverdict := t.collide_capsules_iff rfl (a := a) (b := b) rfl rfl .identity poseB
  have hreversed := t.collide_capsules_iff rfl (a := b) (b := a) rfl rfl poseB .identity
  simp only [a, b, Part.rebase, hcoreA, hcoreB] at hverdict hreversed
  refine ⟨?_, ?_, ?_, hverdict.mpr hnear, ?_⟩
  · rw [Primitive.capsule?_of_pos (by positivity) (by positivity),
      mul_div_cancel_left₀ _ two_ne_zero]
    rfl
  · rw [Primitive.capsule?_of_pos (by positivity) (by positivity), show 4 * u / 2 = 2 * u by ring]
    rfl
  · norm_num [Pose.Rigid, Rotation.isUnit_iff, poseB]
  · rw [← Bool.not_eq_true]
    exact fun h ↦ hfar (hreversed.mp h)

end PairTester

end Collision
