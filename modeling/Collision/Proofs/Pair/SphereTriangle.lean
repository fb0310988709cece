import Collision.Proofs.Pair.ClosedForms
import Collision.Proofs.Shape.Division

/-!
# Spheres and triangles without area

The corners of a triangle may lie on one line. A sphere meets such a triangle where it comes closer
to that line between the corners than its radius, and there is one contact of positive depth then:
as soon as the closest point of the triangle is found.

It is not found where the first two corners coincide and the third one leads from them towards the
centre of the sphere: the point is looked for on the edge between the first two then, and zero is
divided by the square of its length. The distance that follows is no number, no comparison holds of
it, and the sphere and the triangle collide however far they are apart, with a contact whose depth is
no number.

* `Round.sphereTriangle_checked` says that the contacts of checked arithmetic are those of the real
  numbers where the closest point is found, `Round.sphereTriangle_undefined` what they are where it
  is not.
* `PairTester.sphere_meets_line_of_corners` draws both conclusions for the verdict and the contacts
  of a tester.
-/

set_option autoImplicit false
set_option relaxedAutoImplicit false

namespace Collision

open Checked (defined undefined)

namespace Round

/-! ### Contacts -/

theorem contact_checked (pa : Vec3 ℝ) (ra : ℝ) (pb : Vec3 ℝ) (rb : ℝ) (fallback : Vec3 ℝ) :
    contact pa.checked (defined ra) pb.checked (defined rb) fallback.checked =
      (contact pa ra pb rb fallback).map Contact.checked := by
  simp only [contact, Vec3.checked_sub, Vec3.checked_norm, Checked.defined_add, Checked.defined_le,
    Checked.zero_eq, Checked.defined_lt, Scalar.zero_real]
  split_ifs with happart hpos
  · rfl
  · rw [Vec3.checked_div _ hpos.ne']
    rfl
  · rfl

/-- A contact with a point that is not found has no depth. -/
theorem contact_undefined (pa : Vec3 Checked) (ra rb : Checked) (fallback : Vec3 Checked) :
    ∃ c, contact pa ra (Vec3.replicate undefined) rb fallback = [c] ∧ c.depth = undefined := by
  have hway : Vec3.replicate undefined - pa = Vec3.replicate undefined := by
    show Vec3.mk (undefined - pa.x) (undefined - pa.y) (undefined - pa.z) = _
    simp only [Checked.undefined_sub]
    rfl
  have hdistance : (Vec3.replicate undefined : Vec3 Checked).norm = undefined := rfl
  simp only [contact, hway, hdistance, Checked.not_le_undefined, if_false, Checked.sub_undefined]
  exact ⟨_, rfl, rfl⟩

theorem sphereTriangle_cases (radius : ℝ) (sphere : Pose ℝ) (t : Triangle ℝ) :
    (radius ≤ ‖t.closestPoint sphere.position - sphere.position‖ ∧
      sphereTriangle radius sphere t = []) ∨
      ‖t.closestPoint sphere.position - sphere.position‖ < radius ∧
        ∃ c, sphereTriangle radius sphere t = [c] ∧ 0 < c.depth := by
  have hradius : radius + (Scalar.ofNat 0 : ℝ) = radius := by
    rw [Scalar.ofNat_real, Nat.cast_zero, add_zero]
  have hcases := contact_cases sphere.position radius (t.closestPoint sphere.position)
    (Scalar.ofNat 0) ((((t.b - t.a).cross (t.c - t.a)).unit? Segment.negligible).getD (Vec3.axis 0))
  rw [hradius, norm_sub_rev] at hcases
  exact hcases

/-- The contact with a triangle is that of the real numbers if the closest point is found. -/
theorem sphereTriangle_checked {t : Triangle ℝ} {sphere : Pose ℝ}
    (hfound : t.checked.closestPoint sphere.position.checked =
      (t.closestPoint sphere.position).checked) (radius : ℝ) :
    sphereTriangle (defined radius) sphere.checked t.checked =
      (sphereTriangle radius sphere t).map Contact.checked := by
  have hfallback (n : Vec3 ℝ) : (n.checked.unit? (defined Segment.negligible)).getD (Vec3.axis 0) =
      ((n.unit? Segment.negligible).getD (Vec3.axis 0)).checked := by
    rw [n.checked_unit? Segment.negligible_nonneg, Vec3.checked_axis,
      Option.getD_map Vec3.checked]
  show contact sphere.position.checked (defined radius)
    (t.checked.closestPoint sphere.position.checked) (defined _)
    ((((t.b - t.a).cross (t.c - t.a)).checked.unit? (defined Segment.negligible)).getD
      (Vec3.axis 0)) = _
  rw [hfound, hfallback, contact_checked]
  rfl

/-- The contact with a triangle has no depth if the closest point is not found. -/
theorem sphereTriangle_undefined {t : Triangle ℝ} {sphere : Pose ℝ}
    (hlost : t.checked.closestPoint sphere.position.checked = Vec3.replicate undefined)
    (radius : ℝ) :
    ∃ c, sphereTriangle (defined radius) sphere.checked t.checked = [c] ∧ c.depth = undefined := by
  show ∃ c, contact sphere.position.checked (defined radius)
    (t.checked.closestPoint sphere.position.checked) _ _ = [c] ∧ _
  rw [hlost]
  exact contact_undefined _ _ _ _

end Round

/-- Moved corners lie on one line. -/
theorem Triangle.collinear_placed {t : Triangle ℝ} (ht : Collinear ℝ {t.a, t.b, t.c})
    (pose : Pose ℝ) :
    Collinear ℝ {(t.placed pose).a, (t.placed pose).b, (t.placed pose).c} := by
  rw [collinear_corners_iff] at ht ⊢
  obtain ⟨e, s, r, hb, hc⟩ := Vec3.exists_common_line ht
  simp only [placed, map, Pose.transformPoint_sub, hb, hc, Rotation.apply_smul]
  ext <;> simp [Vec3.cross] <;> ring

namespace PairTester

/-! ### Verdicts -/

section Tests

variable {α : Type} [Scalar α] {a b : Part α} {radius : α} {t : Triangle α}

theorem collide_sphere_triangle (tester : PairTester α) (hcolliders : tester.colliders = .empty)
    (ha : a.primitive = .sphere radius) (hb : b.primitive.triangle? = some t)
    (poseA poseB : Pose α) : tester.collide ⟨.part a, poseA⟩ ⟨.part b, poseB⟩ =
      !(Round.sphereTriangle radius (a.rebase poseA) (t.placed (b.rebase poseB))).isEmpty := by
  rw [tester.collide_parts hcolliders, ha]
  rcases Primitive.triangle?_cases hb with hb | hb <;> rw [hb] <;> rfl

theorem separate_sphere_triangle (tester : PairTester α)
    (hseparators : tester.separators = .empty) (ha : a.primitive = .sphere radius)
    (hb : b.primitive.triangle? = some t) (poseA poseB : Pose α) :
    tester.separate ⟨.part a, poseA⟩ ⟨.part b, poseB⟩ = Contacts.limit tester.config.contacts
      (Round.sphereTriangle radius (a.rebase poseA) (t.placed (b.rebase poseB))) := by
  rw [tester.separate_parts hseparators, ha]
  rcases Primitive.triangle?_cases hb with hb | hb <;> rw [hb] <;> rfl

end Tests

/-- A sphere and a triangle whose corners lie on one line, alone or of a mesh, at any poses and with
any offsets; a tester without overrides that may report a contact, in checked arithmetic. Unless the
first two corners coincide and the third one leads from them towards the centre of the sphere, they
collide exactly if the centre is closer to what the corners span than the radius, and there is one
contact then, of positive depth. In the case left out they collide, with a contact whose depth is no
number. -/
theorem sphere_meets_line_of_corners (tester : PairTester Checked)
    (hcolliders : tester.colliders = .empty) (hseparators : tester.separators = .empty)
    (hcontacts : 1 ≤ tester.config.contacts) (a b : Part ℝ) (radius : ℝ) (t : Triangle ℝ)
    (ha : a.primitive = .sphere radius) (hb : b.primitive.triangle? = some t)
    (ht : Collinear ℝ {t.a, t.b, t.c}) (poseA poseB : Pose ℝ) :
    let first : Placed Checked := ⟨.part a.checked, poseA.checked⟩
    let second : Placed Checked := ⟨.part b.checked, poseB.checked⟩
    let center := (a.rebase poseA).position
    let u := t.placed (b.rebase poseB)
    (u.a ≠ u.b ∨ (u.c - u.a).dot (center - u.a) ≤ 0 →
      (tester.collide first second = true ↔
        Metric.infDist center (Vec3.hull u.corners) < radius) ∧
      (tester.collide first second = true → ∃ c, tester.separate first second = [c] ∧
        ∃ depth, 0 < depth ∧ c.depth = defined depth)) ∧
      (u.a = u.b → 0 < (u.c - u.a).dot (center - u.a) →
        tester.collide first second = true ∧
          ∃ c, tester.separate first second = [c] ∧ c.depth = undefined) := by
  intro first second center u
  have ha' : a.checked.primitive = .sphere (defined radius) := by
    rw [Part.checked_primitive, ha]
    rfl
  have hb' : b.checked.primitive.triangle? = some t.checked := by
    rw [Part.checked_triangle?, hb]
    rfl
  have hcollide := tester.collide_sphere_triangle hcolliders ha' hb' poseA.checked poseB.checked
  have hseparate := tester.separate_sphere_triangle hseparators ha' hb' poseA.checked
    poseB.checked
  rw [Part.checked_rebase, Part.checked_rebase, Triangle.checked_placed] at hcollide hseparate
  obtain ⟨hfound, hlost⟩ := Triangle.closestPoint_of_collinear (t.collinear_placed ht _) center
  have hlimit (c : Contact Checked) : Contacts.limit tester.config.contacts [c] = [c] :=
    if_pos hcontacts
  constructor
  · intro hside
    obtain ⟨hclosest, hdefined⟩ := hfound hside
    rw [Round.sphereTriangle_checked hdefined] at hcollide hseparate
    rw [hclosest.infDist_eq]
    rcases Round.sphereTriangle_cases radius (a.rebase poseA) u with
      ⟨hapart, hnil⟩ | ⟨hnear, c, hc, hdepth⟩
    · have hfalse : tester.collide first second ≠ true := by
        rw [hcollide, hnil]
        exact Bool.false_ne_true
      exact ⟨iff_of_false hfalse (not_lt.mpr hapart), fun h ↦ (hfalse h).elim⟩
    · rw [hc, List.map_singleton] at hcollide hseparate
      exact ⟨iff_of_true hcollide hnear,
        fun _ ↦ ⟨c.checked, hseparate.trans (hlimit _), c.depth, hdepth, rfl⟩⟩
  · intro hab hside
    obtain ⟨c, hc, hdepth⟩ := Round.sphereTriangle_undefined (hlost hab hside) radius
    rw [hc] at hcollide hseparate
    exact ⟨hcollide, c, hseparate.trans (hlimit c), hdepth⟩

/-- A ball of radius one half a length above the middle of three corners in a row collides with them.
So does one ten lengths from a triangle whose first two corners coincide and whose third one leads
towards it. -/
theorem sphere_meets_corners_in_a_row :
    let tester : PairTester Checked := { config := ⟨.standard, 4⟩ }
    let ball : Part ℝ := .bare (.sphere 1)
    let row : Triangle ℝ := ⟨⟨-1, 0, 0⟩, 0, ⟨1, 0, 0⟩⟩
    let needle : Triangle ℝ := ⟨0, 0, ⟨1, 0, 0⟩⟩
    let touches (place : Vec3 ℝ) (t : Triangle ℝ) : Bool :=
      tester.collide ⟨.part ball.checked, (Pose.ofPosition place).checked⟩
        ⟨.part (Part.bare (.triangle t)).checked, Pose.identity.checked⟩
    tester.colliders = .empty ∧ tester.separators = .empty ∧ 1 ≤ tester.config.contacts ∧
      Collinear ℝ {row.a, row.b, row.c} ∧ Collinear ℝ {needle.a, needle.b, needle.c} ∧
      row.a ≠ row.b ∧ touches ⟨0, 0, 1 / 2⟩ row = true ∧ needle.a = needle.b ∧
      touches ⟨10, 0, 0⟩ needle = true := by
  intro tester ball row needle touches
  have hcontacts : 1 ≤ tester.config.contacts := by decide
  have hrow : Collinear ℝ {row.a, row.b, row.c} := by
    rw [row.collinear_corners_iff]
    ext <;> simp [Vec3.cross, row]
  have hneedle : Collinear ℝ {needle.a, needle.b, needle.c} := by
    rw [needle.collinear_corners_iff]
    ext <;> simp [Vec3.cross, needle]
  have hdiffer : row.a ≠ row.b := by
    intro hsame
    have hx := congrArg Vec3.x hsame
    norm_num [row] at hx
  obtain ⟨hmeets, -⟩ := tester.sphere_meets_line_of_corners rfl rfl hcontacts ball
    (.bare (.triangle row)) 1 row rfl rfl hrow (.ofPosition ⟨0, 0, 1 / 2⟩) .identity
  obtain ⟨-, hlost⟩ := tester.sphere_meets_line_of_corners rfl rfl hcontacts ball
    (.bare (.triangle needle)) 1 needle rfl rfl hneedle (.ofPosition ⟨10, 0, 0⟩) .identity
  simp only [Part.rebase, Triangle.placed_identity] at hmeets hlost
  refine ⟨rfl, rfl, hcontacts, hrow, hneedle, hdiffer, (hmeets (.inl hdiffer)).1.mpr ?_, rfl,
    (hlost rfl ?_).1⟩
  · have hmiddle : (0 : Vec3 ℝ) ∈ Vec3.hull row.corners :=
      subset_convexHull ℝ _ (by simp [Triangle.corners, row])
    refine (Metric.infDist_le_dist_of_mem hmiddle).trans_lt ?_
    rw [dist_eq_norm, sub_zero, Vec3.norm_eq_sqrt_dot, Real.sqrt_lt' one_pos]
    norm_num [Vec3.dot_eq, Pose.ofPosition]
  · norm_num [Vec3.dot_eq, Pose.ofPosition, needle]

/-- A sphere of radius one and a triangle whose first two corners coincide, in double precision: they
collide, and the depth of their contact is no number, although they are nine lengths apart. -/
theorem sphere_collides_far_from_needle :
    let tester : PairTester Float := { config := ⟨.standard, 4⟩ }
    let needle : Triangle Float := ⟨⟨0, 0, 0⟩, ⟨0, 0, 0⟩, ⟨1, 0, 0⟩⟩
    let first : Placed Float := ⟨.part (.bare (.sphere 1)), .ofPosition ⟨10, 0, 0⟩⟩
    let second : Placed Float := ⟨.part (.bare (.triangle needle)), .identity⟩
    (Primitive.triangleOf? needle).isOk = true ∧ tester.collide first second = true ∧
      (tester.separate first second).map (fun c ↦ Scalar.isNaN c.depth) = [true] ∧
      9 ≤ Metric.infDist (⟨10, 0, 0⟩ : Vec3 ℝ) (Vec3.hull [⟨0, 0, 0⟩, ⟨0, 0, 0⟩, ⟨1, 0, 0⟩]) := by
  refine ⟨by decide +kernel, by decide +kernel, by decide +kernel, ?_⟩
  refine (Metric.le_infDist ⟨⟨0, 0, 0⟩, subset_convexHull ℝ _ (by simp)⟩).mpr fun {x} hx ↦ ?_
  have hbefore : x.dot (Vec3.axis 0) ≤ 1 := by
    refine dot_le_of_mem_hull (fun q hq ↦ ?_) hx
    simp only [List.mem_cons, List.not_mem_nil, or_false] at hq
    rcases hq with rfl | rfl | rfl <;> norm_num [Vec3.dot_axis, Vec3.get]
  have hcenter : (⟨10, 0, 0⟩ : Vec3 ℝ).dot (Vec3.axis 0) = 10 := Vec3.dot_axis _ 0
  have hreach := (le_abs_self _).trans
    ((Vec3.axis_isDirection 0).abs_dot_le ((⟨10, 0, 0⟩ : Vec3 ℝ) - x))
  rw [Vec3.sub_dot, hcenter] at hreach
  rw [dist_eq_norm]
  linarith

end PairTester

end Collision
