import Collision.Proofs.Pair.HalfSpace
import Collision.Proofs.Scalar.Checked
import Collision.Proofs.Shape.Section

/-!
# A box cut by a plane

The edges of a placed box cross the surface of a half-space in points of the section of the box by
the surface, and if the box reaches below the surface they do so in every extreme point of the
section: the crossings span the section (`HalfSpace.hull_edgeCrossings`). So there are crossings
exactly if some corners are below the surface and some are not, and there are contacts at the
corners exactly if all of them are below.

Nothing is divided by zero on the way (`HalfSpace.box_checked`): a crossing is looked for between
points of different heights, and a mean is taken only if there are more points than may be reported
(`HalfSpace.ne_nil_of_too_many`). `HalfSpace.box_spans_section` is the whole answer for a placed
box.
-/

set_option autoImplicit false
set_option relaxedAutoImplicit false

namespace Collision

open Checked (defined)

namespace HalfSpace

variable {h : HalfSpace ℝ} {half : Vec3 ℝ} {pose : Pose ℝ}

/-! ### Heights -/

theorem height_sub (h : HalfSpace ℝ) (p q : Vec3 ℝ) :
    h.normal.dot (q - p) = h.height q - h.height p := by
  rw [height, height, ← Vec3.dot_sub, sub_sub_sub_cancel_right]

/-- The height of a placed point is measured in the frame of its body. -/
theorem height_transformPoint (h : HalfSpace ℝ) (pose : Pose ℝ) (q : Vec3 ℝ) :
    h.height (pose.transformPoint q) =
      h.height pose.position + q.dot (pose.inverseTransformVector h.normal) := by
  rw [height, height, Vec3.dot_sub, Vec3.dot_sub, Vec3.dot_comm h.normal,
    Pose.transformPoint_dot, Vec3.dot_comm pose.position]
  ring

theorem height_transformPoint_neg_iff (h : HalfSpace ℝ) (pose : Pose ℝ) (q : Vec3 ℝ) :
    h.height (pose.transformPoint q) < 0 ↔
      q.dot (pose.inverseTransformVector h.normal) < -h.height pose.position := by
  rw [height_transformPoint, lt_neg_iff_add_neg, add_comm]

/-- The points of a placed box on the surface are a section of the box. -/
theorem section_eq (h : HalfSpace ℝ) (half : Vec3 ℝ) (pose : Pose ℝ) :
    pose.transformPoint '' (Primitive.box half).region ∩ {p | h.height p = 0} =
      pose.transformPoint '' boxSection half (pose.inverseTransformVector h.normal)
        (-h.height pose.position) := by
  rw [← Set.image_inter_preimage]
  congr 1
  ext q
  simp only [boxSection, Set.mem_inter_iff, Set.mem_preimage, Set.mem_ofPred_eq,
    height_transformPoint]
  rw [eq_neg_iff_add_eq_zero, add_comm]

/-! ### One edge -/

/-- Points are on different sides if exactly one of them is strictly below the surface. -/
def Sides (h : HalfSpace ℝ) (a b : Vec3 ℝ) : Prop := ¬(h.height a < 0 ↔ h.height b < 0)

theorem Sides.sub_ne_zero {a b : Vec3 ℝ} (hsides : h.Sides a b) : h.height a - h.height b ≠ 0 := by
  intro hzero
  rw [Sides, sub_eq_zero.mp hzero] at hsides
  exact hsides Iff.rfl

/-- The way from a point to the surface is a part of the way to a point on the other side. -/
theorem Sides.ratio_mem {a b : Vec3 ℝ} (hsides : h.Sides a b) :
    h.height a / (h.height a - h.height b) ∈ Set.Icc 0 1 := by
  unfold Sides at hsides
  rcases lt_or_ge (h.height a) 0 with ha | ha
  · have hb : 0 ≤ h.height b := by simpa [ha] using hsides
    exact ⟨div_nonneg_of_nonpos ha.le (by linarith),
      (div_le_one_of_neg (by linarith)).mpr (by linarith)⟩
  · have hb : h.height b < 0 := by simpa [not_lt.mpr ha] using hsides
    exact ⟨div_nonneg ha (by linarith), (div_le_one (by linarith)).mpr (by linarith)⟩

theorem crossing?_of_sides {a b : Vec3 ℝ} (hsides : h.Sides a b) : h.crossing? a b =
    some (a + (h.height a / (h.height a - h.height b)) • (b - a)) :=
  if_neg (by rwa [decide_eq_decide, Scalar.zero_real])

theorem crossing?_of_not_sides {a b : Vec3 ℝ} (hsides : ¬h.Sides a b) : h.crossing? a b = none :=
  if_pos (by rwa [decide_eq_decide, Scalar.zero_real, ← not_not (a := _ ↔ _)])

/-- A crossing is a point of the edge and of the surface. -/
theorem crossing?_spec {a b p : Vec3 ℝ} (hp : h.crossing? a b = some p) :
    p ∈ segment ℝ a b ∧ h.height p = 0 := by
  by_cases hsides : h.Sides a b
  swap
  · rw [crossing?_of_not_sides hsides] at hp
    cases hp
  rw [crossing?_of_sides hsides] at hp
  obtain rfl := Option.some_inj.mp hp
  refine ⟨?_, ?_⟩
  · rw [segment_eq_image']
    exact ⟨_, hsides.ratio_mem, rfl⟩
  · have hne := hsides.sub_ne_zero
    rw [height_add, Vec3.dot_smul, height_sub]
    field_simp
    ring

/-- The point of an edge on the surface is the crossing. -/
theorem crossing?_eq_some {a b p : Vec3 ℝ} (hsides : h.Sides a b) (hp : p ∈ segment ℝ a b)
    (hheight : h.height p = 0) : h.crossing? a b = some p := by
  rw [segment_eq_image'] at hp
  obtain ⟨t, -, rfl⟩ := hp
  have hratio : h.height a / (h.height a - h.height b) = t := by
    rw [height_add, Vec3.dot_smul, height_sub] at hheight
    rw [div_eq_iff hsides.sub_ne_zero]
    linarith
  rw [crossing?_of_sides hsides, hratio]

/-! ### The edges of a box -/

theorem mem_edgeCrossings {p : Vec3 ℝ} : p ∈ h.edgeCrossings half pose ↔
    ∃ edge ∈ BoxCorners.edges, h.crossing? (pose.transformPoint (BoxCorners.corner half edge.1))
      (pose.transformPoint (BoxCorners.corner half edge.2)) = some p :=
  List.mem_filterMap

theorem edgeCrossings_subset (hhalf : (Primitive.box half).Valid) {p : Vec3 ℝ}
    (hp : p ∈ h.edgeCrossings half pose) :
    p ∈ pose.transformPoint '' (Primitive.box half).region ∩ {p | h.height p = 0} := by
  obtain ⟨edge, -, hcrossing⟩ := mem_edgeCrossings.mp hp
  obtain ⟨hsegment, hheight⟩ := crossing?_spec hcrossing
  refine ⟨?_, hheight⟩
  exact (pose.image_convex (Primitive.region_convex _)).segment_subset
    (Set.mem_image_of_mem _ (BoxCorners.corner_mem_region hhalf _))
    (Set.mem_image_of_mem _ (BoxCorners.corner_mem_region hhalf _)) hsegment

/-- If some corner is below the surface, the crossings span the section of the box. -/
theorem hull_edgeCrossings (hhalf : (Primitive.box half).Valid)
    (hbelow : ∃ q ∈ BoxCorners.all half, h.height (pose.transformPoint q) < 0) :
    Vec3.hull (h.edgeCrossings half pose) =
      pose.transformPoint '' (Primitive.box half).region ∩ {p | h.height p = 0} := by
  refine Set.Subset.antisymm ?_ ?_
  · refine convexHull_min (fun p hp ↦ edgeCrossings_subset hhalf hp) ?_
    rw [section_eq]
    exact pose.image_convex (boxSection_convex _ _ _)
  rw [section_eq, Set.image_subset_iff]
  obtain ⟨corner, hcorner, hlt⟩ := hbelow
  -- The section is spanned by its extreme points, and each of those is a crossing.
  rw [← closure_convexHull_extremePoints (boxSection_isCompact _ _ _) (boxSection_convex _ _ _)]
  refine closure_minimal (convexHull_min (fun q hq ↦ ?_) ?_) ?_
  · obtain ⟨edge, hedge, hsegment, hsides⟩ := exists_edge_of_extreme hhalf hq
      ⟨corner, BoxCorners.mem_region_of_mem_all hhalf hcorner,
        (h.height_transformPoint_neg_iff pose corner).mp hlt⟩
    simp only [← height_transformPoint_neg_iff] at hsides
    have hheight : h.height (pose.transformPoint q) = 0 := by
      rw [height_transformPoint, hq.1.2, add_neg_cancel]
    exact subset_convexHull ℝ _ (mem_edgeCrossings.mpr ⟨edge, hedge,
      crossing?_eq_some hsides (pose.transformPoint_mem_segment hsegment) hheight⟩)
  · exact pose.preimage_convex (convex_convexHull ℝ _)
  · exact (hull_isCompact _).isClosed.preimage pose.transformPoint_continuous

theorem edgeCrossings_ne_nil (hhalf : (Primitive.box half).Valid)
    (hbelow : ∃ q ∈ BoxCorners.all half, h.height (pose.transformPoint q) < 0)
    (habove : ∃ q ∈ BoxCorners.all half, 0 ≤ h.height (pose.transformPoint q)) :
    h.edgeCrossings half pose ≠ [] := by
  intro hnil
  have hhull := hull_edgeCrossings hhalf hbelow
  obtain ⟨a, ha, hlow⟩ := hbelow
  obtain ⟨b, hb, hhigh⟩ := habove
  have hsides : h.Sides (pose.transformPoint a) (pose.transformPoint b) := by
    simp [Sides, hlow, not_lt.mpr hhigh]
  obtain ⟨hsegment, hheight⟩ := crossing?_spec (crossing?_of_sides hsides)
  have hregion := (pose.image_convex (Primitive.region_convex _)).segment_subset
    (Set.mem_image_of_mem _ (BoxCorners.mem_region_of_mem_all hhalf ha))
    (Set.mem_image_of_mem _ (BoxCorners.mem_region_of_mem_all hhalf hb)) hsegment
  have hmem := hhull.superset ⟨hregion, hheight⟩
  simp [Vec3.hull, hnil] at hmem

theorem edgeCrossings_eq_nil
    (hall : ∀ q ∈ BoxCorners.all half, h.height (pose.transformPoint q) < 0) :
    h.edgeCrossings half pose = [] := by
  refine List.filterMap_eq_nil_iff.mpr fun edge hedge ↦ ?_
  obtain ⟨hfirst, hsecond⟩ := BoxCorners.edges_lt edge hedge
  refine crossing?_of_not_sides (not_not.mpr ?_)
  exact iff_of_true (hall _ (BoxCorners.corner_mem_all hfirst))
    (hall _ (BoxCorners.corner_mem_all hsecond))

theorem cornersBelow_eq
    (hall : ∀ q ∈ BoxCorners.all half, h.height (pose.transformPoint q) < 0) :
    h.cornersBelow half pose = (BoxCorners.all half).map pose.transformPoint := by
  refine List.filter_eq_self.mpr (List.forall_mem_map.mpr fun q hq ↦ ?_)
  simpa using hall q hq

/-! ### Points of contact -/

theorem boxPoints_of_crossings {count : ℕ} (hne : h.edgeCrossings half pose ≠ [])
    (hfit : (h.edgeCrossings half pose).length ≤ count) :
    h.boxPoints half pose count = h.edgeCrossings half pose := by
  simp [boxPoints, boxCandidates, hne, hfit]

theorem boxPoints_of_submerged {count : ℕ}
    (hall : ∀ q ∈ BoxCorners.all half, h.height (pose.transformPoint q) < 0) (hfit : 8 ≤ count) :
    h.boxPoints half pose count = (BoxCorners.all half).map pose.transformPoint := by
  simp [boxPoints, boxCandidates, edgeCrossings_eq_nil hall, cornersBelow_eq hall,
    BoxCorners.length_all, hfit]

/-- The points of contact, the mean of the corners and crossings too, are points of the box. -/
theorem boxPoints_subset (hhalf : (Primitive.box half).Valid)
    (hbelow : h.cornersBelow half pose ≠ []) {count : ℕ} {p : Vec3 ℝ}
    (hp : p ∈ h.boxPoints half pose count) :
    p ∈ pose.transformPoint '' (Primitive.box half).region := by
  have hcorner {p : Vec3 ℝ} (hp : p ∈ h.cornersBelow half pose) :
      p ∈ pose.transformPoint '' (Primitive.box half).region := by
    obtain ⟨q, hq, rfl⟩ := List.mem_map.mp (mem_cornersBelow.mp hp).1
    exact Set.mem_image_of_mem _ (BoxCorners.mem_region_of_mem_all hhalf hq)
  have hcrossing {p : Vec3 ℝ} (hp : p ∈ h.edgeCrossings half pose) :
      p ∈ pose.transformPoint '' (Primitive.box half).region := (edgeCrossings_subset hhalf hp).1
  unfold boxPoints at hp
  split_ifs at hp
  · unfold boxCandidates at hp
    split_ifs at hp
    · exact hcorner hp
    · exact hcrossing hp
  · rw [List.mem_singleton.mp hp]
    refine convexHull_min (fun q hq ↦ ?_) (pose.image_convex (Primitive.region_convex _))
      (Vec3.sum_div_length_mem_hull (List.append_ne_nil_of_left_ne_nil hbelow _))
    exact (List.mem_append.mp hq).elim hcorner hcrossing

theorem box_eq_nil (habove : ∀ q ∈ BoxCorners.all half, 0 ≤ h.height (pose.transformPoint q))
    (count : ℕ) : h.box half pose count = [] := by
  obtain ⟨corner, hcorner, hlowest, -⟩ := h.lowestCorner?_spec half pose
  rw [box_eq, hlowest]
  exact if_pos (by simpa using habove corner hcorner)

/-- The contacts with a box that reaches below the surface are as deep as its lowest corner. -/
theorem box_eq_map (hbelow : ∃ q ∈ BoxCorners.all half, h.height (pose.transformPoint q) < 0)
    (count : ℕ) : ∃ corner ∈ BoxCorners.all half,
      (∀ q ∈ BoxCorners.all half,
        h.height (pose.transformPoint corner) ≤ h.height (pose.transformPoint q)) ∧
      h.box half pose count = (h.boxPoints half pose count).map fun p ↦
        { position := p, normal := h.normal, depth := -h.height (pose.transformPoint corner) } := by
  obtain ⟨corner, hcorner, hlowest, hmin⟩ := h.lowestCorner?_spec half pose
  obtain ⟨q, hq, hlt⟩ := hbelow
  refine ⟨corner, hcorner, hmin, ?_⟩
  rw [box_eq, hlowest]
  exact if_neg (by simpa using (hmin q hq).trans_lt hlt)

/-! ### Divisions -/

/-- The same half-space in checked arithmetic. -/
def checked (h : HalfSpace ℝ) : HalfSpace Checked := ⟨h.point.checked, h.normal.checked⟩

theorem checked_ofPose (pose : Pose ℝ) : ofPose pose.checked = (ofPose pose).checked := by
  simp only [ofPose, Pose.axis, Vec3.checked_axis]
  rfl

theorem checked_height (h : HalfSpace ℝ) (p : Vec3 ℝ) :
    h.checked.height p.checked = defined (h.height p) := rfl

theorem checked_transformPoint (pose : Pose ℝ) (p : Vec3 ℝ) :
    pose.checked.transformPoint p.checked = (pose.transformPoint p).checked := rfl

/-- A crossing divides by the difference of two heights, one of them negative and the other not. -/
theorem checked_crossing? (h : HalfSpace ℝ) (a b : Vec3 ℝ) :
    h.checked.crossing? a.checked b.checked = (h.crossing? a b).map Vec3.checked := by
  by_cases hsides : h.Sides a b
  · rw [crossing?_of_sides hsides]
    simp only [crossing?, checked_height, Checked.zero_eq, Checked.defined_lt, decide_eq_decide]
    rw [if_neg hsides, Checked.defined_sub, Checked.defined_div _ hsides.sub_ne_zero]
    rfl
  · rw [crossing?_of_not_sides hsides]
    simp only [crossing?, checked_height, Checked.zero_eq, Checked.defined_lt, decide_eq_decide]
    exact if_pos (not_not.mp hsides)

theorem checked_corner (half : Vec3 ℝ) (n : ℕ) :
    BoxCorners.corner half.checked n = (BoxCorners.corner half n).checked := by
  have hside (bit : ℕ) : (BoxCorners.side n bit : Checked) = defined (BoxCorners.side n bit) := by
    unfold BoxCorners.side
    split_ifs <;> rfl
  simp only [BoxCorners.corner, hside]
  rfl

theorem checked_all (half : Vec3 ℝ) :
    BoxCorners.all half.checked = (BoxCorners.all half).map Vec3.checked := by
  rw [BoxCorners.all, BoxCorners.all, List.map_map]
  exact List.map_congr_left fun n _ ↦ checked_corner half n

theorem checked_lowestCorner? (h : HalfSpace ℝ) (half : Vec3 ℝ) (pose : Pose ℝ) :
    h.checked.lowestCorner? half.checked pose.checked =
      (h.lowestCorner? half pose).map defined := by
  rw [lowestCorner?, lowestCorner?, ← Checked.minimum?_defined, checked_all]
  simp only [List.map_map, Function.comp_def, checked_transformPoint, checked_height]

theorem checked_cornersBelow (h : HalfSpace ℝ) (half : Vec3 ℝ) (pose : Pose ℝ) :
    h.checked.cornersBelow half.checked pose.checked =
      (h.cornersBelow half pose).map Vec3.checked := by
  simp only [cornersBelow, checked_all, List.filter_map, List.map_map, Function.comp_def,
    checked_transformPoint, checked_height, Checked.zero_eq, Checked.defined_lt, Scalar.zero_real]

theorem checked_edgeCrossings (h : HalfSpace ℝ) (half : Vec3 ℝ) (pose : Pose ℝ) :
    h.checked.edgeCrossings half.checked pose.checked =
      (h.edgeCrossings half pose).map Vec3.checked := by
  simp only [edgeCrossings, checked_corner, checked_transformPoint, checked_crossing?,
    List.map_filterMap]

theorem checked_boxCandidates (h : HalfSpace ℝ) (half : Vec3 ℝ) (pose : Pose ℝ) :
    h.checked.boxCandidates half.checked pose.checked =
      (h.boxCandidates half pose).map Vec3.checked := by
  rw [boxCandidates, boxCandidates, checked_cornersBelow, checked_edgeCrossings, List.isEmpty_map]
  split_ifs <;> rfl

/-- More points than any number are points of which a mean can be taken. -/
theorem ne_nil_of_too_many {count : ℕ} (hmany : ¬(h.boxCandidates half pose).length ≤ count) :
    h.cornersBelow half pose ++ h.edgeCrossings half pose ≠ [] := by
  have hsome : h.boxCandidates half pose ≠ [] := by
    intro hnil
    simp [hnil] at hmany
  intro hnone
  obtain ⟨hbelow, hcrossings⟩ := List.append_eq_nil_iff.mp hnone
  simp [boxCandidates, hbelow, hcrossings] at hsome

/-- A mean divides by the number of its points, of which there are more than may be reported. -/
theorem checked_boxPoints (h : HalfSpace ℝ) (half : Vec3 ℝ) (pose : Pose ℝ) (count : ℕ) :
    h.checked.boxPoints half.checked pose.checked count =
      (h.boxPoints half pose count).map Vec3.checked := by
  simp only [boxPoints, checked_boxCandidates, List.length_map, checked_cornersBelow,
    checked_edgeCrossings, ← List.map_append]
  split_ifs with hfit
  · rfl
  · rw [Vec3.checked_sum_div_length (ne_nil_of_too_many hfit)]
    rfl

/-- The contacts with a box are those of the real numbers: nothing is divided by zero. -/
theorem box_checked (h : HalfSpace ℝ) (half : Vec3 ℝ) (pose : Pose ℝ) (count : ℕ) :
    h.checked.box half.checked pose.checked count =
      (h.box half pose count).map Contact.checked := by
  rw [box_eq, box_eq, checked_lowestCorner?, checked_boxPoints]
  cases h.lowestCorner? half pose with
  | none => rfl
  | some lowest =>
    simp only [Option.map_some, Checked.zero_eq, Checked.defined_le, Scalar.zero_real]
    split_ifs
    · rfl
    · simp only [List.map_map]
      rfl

/-! ### The whole answer -/

/-- The contacts between a placed plane and a placed box, both anywhere. Nothing is divided by zero.
There are contacts exactly if some corner is below the plane; if some corner is not, the contacts
span the section of the box by the plane, unless they are too many, and if none is not, they are at
the corners. -/
theorem box_spans_section (plane : Pose ℝ) {half : Vec3 ℝ} (hhalf : (Primitive.box half).Valid)
    (pose : Pose ℝ) (count : ℕ) :
    let h := ofPose plane
    let contacts := h.box half pose count
    let positions := contacts.map Contact.position
    let corners := (BoxCorners.all half).map pose.transformPoint
    let box := pose.transformPoint '' (Primitive.box half).region
    let surface := {p | h.height p = 0}
    (ofPose plane.checked).box half.checked pose.checked count = contacts.map Contact.checked ∧
      ((∀ p ∈ corners, 0 ≤ h.height p) → contacts = []) ∧
      ((∃ p ∈ corners, h.height p < 0) →
        1 ≤ contacts.length ∧ contacts.length ≤ max 1 count ∧
          (∃ lowest ∈ corners, (∀ p ∈ corners, h.height lowest ≤ h.height p) ∧
            ∀ c ∈ contacts, c.normal = plane.axis 2 ∧ c.depth = -h.height lowest) ∧
          (∀ p ∈ positions, p ∈ box) ∧
          ((∃ p ∈ corners, 0 ≤ h.height p) → (h.edgeCrossings half pose).length ≤ count →
            (∀ p ∈ positions, p ∈ surface) ∧ Vec3.hull positions = box ∩ surface) ∧
          ((∀ p ∈ corners, h.height p < 0) → 8 ≤ count → positions = corners)) := by
  intro h contacts positions corners box surface
  have hevery (P : Vec3 ℝ → Prop) : (∀ p ∈ corners, P p) ↔
      ∀ q ∈ BoxCorners.all half, P (pose.transformPoint q) := List.forall_mem_map
  have hsome (P : Vec3 ℝ → Prop) : (∃ p ∈ corners, P p) ↔
      ∃ q ∈ BoxCorners.all half, P (pose.transformPoint q) := by simp [corners]
  simp only [hevery, hsome]
  refine ⟨?_, fun habove ↦ box_eq_nil habove count, fun hbelow ↦ ?_⟩
  · rw [checked_ofPose]
    exact h.box_checked half pose count
  obtain ⟨lowest, hlowest, hmin, hbox⟩ := box_eq_map hbelow count
  have hcontacts : contacts = _ := hbox
  have hpositions : positions = h.boxPoints half pose count := by
    simp [positions, hcontacts, Function.comp_def]
  have hne : h.cornersBelow half pose ≠ [] := by
    obtain ⟨q, hq, hlt⟩ := hbelow
    exact List.ne_nil_of_mem (mem_cornersBelow.mpr ⟨List.mem_map_of_mem hq, hlt⟩)
  have hlength : contacts.length = (h.boxPoints half pose count).length := by
    rw [hcontacts, List.length_map]
  rw [hlength, hpositions]
  obtain ⟨hleast, hmost⟩ := length_boxPoints hne count
  refine ⟨hleast, hmost, ⟨lowest, hlowest, hmin, ?_⟩, fun p hp ↦ boxPoints_subset hhalf hne hp,
    fun habove hfit ↦ ?_, fun hall hfit ↦ boxPoints_of_submerged hall hfit⟩
  · rw [hcontacts]
    exact List.forall_mem_map.mpr fun p _ ↦ ⟨rfl, rfl⟩
  · rw [boxPoints_of_crossings (edgeCrossings_ne_nil hhalf hbelow habove) hfit]
    exact ⟨fun p hp ↦ (edgeCrossings_subset hhalf hp).2, hull_edgeCrossings hhalf hbelow⟩

/-- A plane through two opposite edges of a box: the contacts span the rectangle between them. -/
theorem box_spans_rectangle :
    let plane : Pose ℝ := ⟨Vec3.zero, ⟨4 / 5, 3 / 5, 0, 0⟩⟩
    let half : Vec3 ℝ := ⟨1, 7, 24⟩
    let contacts := (ofPose plane).box half Pose.identity 12
    Primitive.boxOfHalf? half = .ok (.box half) ∧ (Primitive.box half).Valid ∧
      1 ≤ contacts.length ∧
      Vec3.hull (contacts.map Contact.position) =
        {p | |p.x| ≤ 1 ∧ |p.y| ≤ 7 ∧ 24 * p.y = 7 * p.z} := by
  intro plane half contacts
  have hbox : Primitive.boxOfHalf? half = .ok (.box half) := by
    apply Primitive.boxOfHalf?_of_pos <;> norm_num [half]
  have hhalf : (Primitive.box half).Valid := Primitive.boxOfHalf?_valid hbox
  have haxis : plane.axis 2 = ⟨0, -(24 / 25), 7 / 25⟩ := by
    ext <;> simp [plane, Pose.axis, Rotation.apply, Rotation.vector, Vec3.cross, Vec3.axis,
      Vec3.ofFn, Vec3.mul_eq_smul] <;> norm_num
  have hheight (p : Vec3 ℝ) : (ofPose plane).height p = (7 * p.z - 24 * p.y) / 25 := by
    have horigin : plane.position = 0 := Vec3.zero_eq
    rw [height, ofPose, haxis, horigin, sub_zero, Vec3.dot_eq]
    ring
  have hcorner (z : ℝ) (hz : z = 24 ∨ z = -24) :
      ⟨1, 7, z⟩ ∈ (BoxCorners.all half).map (Pose.transformPoint Pose.identity) := by
    simpa [Pose.identity_transformPoint, BoxCorners.mem_all_iff, half] using hz
  obtain ⟨-, -, hanswer⟩ := box_spans_section plane hhalf Pose.identity 12
  obtain ⟨hleast, -, -, -, hspan, -⟩ :=
    hanswer ⟨_, hcorner (-24) (.inr rfl), by rw [hheight]; norm_num⟩
  obtain ⟨-, hhull⟩ := hspan ⟨_, hcorner 24 (.inl rfl), by rw [hheight]; norm_num⟩
    (List.length_filterMap_le _ _)
  refine ⟨hbox, hhalf, hleast, hhull.trans (Set.ext fun p ↦ ?_)⟩
  simp only [Pose.identity_transformPoint, Set.image_id', Primitive.region, hheight, half,
    Set.mem_inter_iff, Set.mem_ofPred_eq]
  constructor
  · rintro ⟨⟨hx, hy, -⟩, hz⟩
    exact ⟨hx, hy, by linarith⟩
  · rintro ⟨hx, hy, hz⟩
    obtain ⟨hleft, hright⟩ := abs_le.mp hy
    exact ⟨⟨hx, hy, abs_le.mpr ⟨by linarith, by linarith⟩⟩, by linarith⟩

end HalfSpace

end Collision
