import Collision.Proofs.Portal.Soundness
import Collision.Proofs.Portal.Contact
import Collision.Proofs.Shape.Interior

/-!
# What a contact says of the origin

A portal that lies beyond the origin has it in its tetrahedron (`Portal.Encloses`), and pushing the
portal out to the boundary keeps it there (`Portal.Encloses.expand`). The interior point of the
portal has a positive weight unless the origin lies on the portal triangle itself, and then the
point of the triangle closest to the origin is the origin and gives no contact
(`Portal.Encloses.contact?_eq_none`). So where the centre is an interior point of the difference
body, a sharp search that gives a contact shows the origin to be an interior point too
(`DifferenceBody.origin_mem_interior_of_penetration?`): the bodies do more than touch.
-/

set_option autoImplicit false
set_option relaxedAutoImplicit false

namespace Collision

namespace Portal

/-- Weights that balance an interior point and a point of a convex set at the origin, the first one
positive, show the origin to be an interior point. -/
theorem origin_mem_interior_of_balance {points : Set (Vec3 ℝ)} (hconvex : Convex ℝ points)
    {x y : Vec3 ℝ} (hx : x ∈ interior points) (hy : y ∈ points) {s t : ℝ} (hs : 0 < s) (ht : 0 ≤ t)
    (h : s • x + t • y = 0) : (0 : Vec3 ℝ) ∈ interior points := by
  have htotal : 0 < s + t := by linarith
  have hmem := hconvex.combo_interior_self_mem_interior hx hy (div_pos hs htotal)
    (div_nonneg ht htotal.le) (by rw [← add_div, div_self htotal.ne'])
  rwa [div_eq_inv_mul, div_eq_inv_mul, mul_smul, mul_smul, ← smul_add, h, smul_zero] at hmem

/-! ### Portals with the origin in their tetrahedron -/

/-- The ray passes through the portal triangle, and not before the origin. -/
structure Encloses (p : Portal ℝ) : Prop extends p.AroundRay where
  origin : 0 ≤ p.tetrahedronWeights.w0

/-- The area vector measures the first corner by the weight of the interior point, and the interior
point by the weights of the corners. -/
theorem area_dot (p : Portal ℝ) :
    p.v1.v.dot ((p.v2.v - p.v1.v).cross (p.v3.v - p.v1.v)) = p.tetrahedronWeights.w0 ∧
      p.v0.v.dot ((p.v2.v - p.v1.v).cross (p.v3.v - p.v1.v)) = -(p.tetrahedronWeights.w1 +
        p.tetrahedronWeights.w2 + p.tetrahedronWeights.w3) := by
  constructor <;>
    · simp only [tetrahedronWeights, Vec3.dot_eq, Vec3.cross, Vec3.sub_x, Vec3.sub_y, Vec3.sub_z]
      ring

theorem AroundRay.proper {p : Portal ℝ} (hp : p.AroundRay) : p.Proper := by
  intro hzero
  obtain ⟨-, hinterior⟩ := p.area_dot
  rw [hzero, Vec3.dot_zero] at hinterior
  linarith [hp.positive]

/-- The origin is not beyond the triangle, and the interior point is strictly behind it. -/
theorem Encloses.direction_dot {p : Portal ℝ} (hp : p.Encloses) :
    0 ≤ p.v1.v.dot p.direction ∧ p.v0.v.dot p.direction < 0 := by
  obtain ⟨hcorner, hinterior⟩ := p.area_dot
  have hscale : 0 < ‖(p.v2.v - p.v1.v).cross (p.v3.v - p.v1.v)‖⁻¹ :=
    inv_pos.mpr (norm_pos_iff.mpr hp.proper)
  rw [direction, unitNormal_eq, Vec3.dot_smul, Vec3.dot_smul, hcorner, hinterior]
  exact ⟨mul_nonneg hscale.le hp.origin,
    mul_neg_of_pos_of_neg hscale (neg_neg_of_pos hp.positive)⟩

/-- A corner replaced by a point no nearer along the normal leaves the origin in the tetrahedron. -/
theorem Encloses.expand {p : Portal ℝ} (hp : p.Encloses) {v4 : DifferencePoint ℝ}
    (hdecided : p.Decided v4) (hbeyond : p.v1.v.dot p.direction ≤ v4.v.dot p.direction) :
    (p.expand v4).Encloses := by
  have haround := hp.toAroundRay.expand hdecided
  obtain ⟨hcorner, hinterior⟩ := hp.direction_dot
  obtain ⟨hsecond, hthird⟩ := p.corners_level
  refine ⟨haround, ?_⟩
  -- Along the old normal all corners are past the origin, and the interior point is behind it.
  obtain ⟨h1, h2, h3⟩ := expand_corners (P := fun v ↦ 0 ≤ v.v.dot p.direction) hcorner
    (hsecond ▸ hcorner) (hthird ▸ hcorner) (hcorner.trans hbeyond)
  have hbalance := congrArg (Vec3.dot · p.direction) (p.expand v4).weights_balance
  simp only [Vec3.add_dot, Vec3.smul_dot, Vec3.zero_dot, expand_v0] at hbalance
  have hsum : 0 ≤ -((p.expand v4).tetrahedronWeights.w0 * p.v0.v.dot p.direction) := by
    have hw1 := mul_nonneg haround.first h1
    have hw2 := mul_nonneg haround.second h2
    have hw3 := mul_nonneg haround.third h3
    linarith
  rw [← mul_neg] at hsum
  exact nonneg_of_mul_nonneg_left hsum (neg_pos.mpr hinterior)

/-- A portal triangle that holds the origin gives no contact: the origin is the closest point. -/
theorem contact?_eq_none {p : Portal ℝ} (hproper : p.Proper)
    (h : (0 : Vec3 ℝ) ∈ Vec3.hull (Triangle.mk p.v1.v p.v2.v p.v3.v).corners) :
    p.contact? = none := by
  have hclosest := Triangle.isClosest_closestPoint (t := ⟨p.v1.v, p.v2.v, p.v3.v⟩) hproper 0
  have hle := hclosest.norm_le h
  rw [sub_zero, sub_zero, norm_zero] at hle
  rw [contact?, Vec3.zero_eq, norm_le_zero_iff.mp hle, Vec3.unit?_eq, norm_zero,
    if_pos zeroWidth_pos.le]
  rfl

/-- A contact shows the origin to be an interior point where that of the portal is one: the weight
of that point is positive, as the origin would lie on the portal triangle otherwise. -/
theorem Encloses.origin_mem_interior {p : Portal ℝ} (hp : p.Encloses) {points : Set (Vec3 ℝ)}
    (hconvex : Convex ℝ points) (hinside : p.Inside points) (hv0 : p.v0.v ∈ interior points)
    {contact : Contact ℝ} (h : p.contact? = some contact) : (0 : Vec3 ℝ) ∈ interior points := by
  have hbalance := hp.crossing_balance
  have hpositive := hp.positive
  rcases hp.origin.eq_or_lt with hzero | hpos
  · rw [← hzero, zero_smul, zero_add, smul_eq_zero, or_iff_right hpositive.ne'] at hbalance
    have hcorner {v : Vec3 ℝ} (hv : v ∈ (Triangle.mk p.v1.v p.v2.v p.v3.v).corners) :
        v ∈ Vec3.hull (Triangle.mk p.v1.v p.v2.v p.v3.v).corners :=
      subset_convexHull ℝ _ hv
    have hcrossing := hp.crossing_mem (convex_convexHull ℝ _) (hcorner (by simp [Triangle.corners]))
      (hcorner (by simp [Triangle.corners])) (hcorner (by simp [Triangle.corners]))
    rw [hbalance] at hcrossing
    rw [contact?_eq_none hp.proper hcrossing] at h
    cases h
  · exact origin_mem_interior_of_balance hconvex hv0
      (hp.crossing_mem hconvex hinside.v1 hinside.v2 hinside.v3) hpos hpositive.le hbalance

/-! ### The push to the boundary -/

/-- The push to the boundary meets no draw when it replaces corners. -/
noncomputable def SharplyPushed (d : DifferenceBody ℝ) (tolerance : ℝ) : ℕ → Portal ℝ → Prop
  | 0, _ => True
  | rounds + 1, p =>
    let v4 := d.support p.direction
    p.reachesTolerance v4 p.direction tolerance = true ∨
      p.Decided v4 ∧ SharplyPushed d tolerance rounds (p.expand v4)

theorem pushOut_sound {d : DifferenceBody ℝ} {tolerance : ℝ} {points : Set (Vec3 ℝ)}
    (hd : d.Within points) (htolerance : 0 ≤ tolerance) (rounds : ℕ) {p : Portal ℝ}
    (hinside : p.Inside points) (hp : p.Encloses) (hsharp : SharplyPushed d tolerance rounds p) :
    (p.pushOut d tolerance rounds).1.Inside points ∧
      (p.pushOut d tolerance rounds).1.Encloses := by
  induction rounds generalizing p with
  | zero => exact ⟨hinside, hp⟩
  | succ rounds ih =>
    simp only [pushOut]
    split_ifs with hreach
    · exact ⟨hinside, hp⟩
    · obtain ⟨hdecided, hsharp⟩ := hsharp.resolve_left hreach
      rw [reachesTolerance_iff, not_le] at hreach
      exact ih (hinside.expand (hd.support _ hp.proper.direction_isDirection))
        (hp.expand hdecided (by linarith)) hsharp

end Portal

namespace DifferenceBody

/-- A sharp search whose push to the boundary meets no draw either. -/
structure SharpContact (d : DifferenceBody ℝ) (config : PortalConfig ℝ) : Prop
    extends d.Sharp config where
  pushed : ∀ p q, Portal.discover d config.iterations = .portal p →
    p.refine d config.tolerance config.iterations = .encloses q →
      q.SharplyPushed d config.tolerance config.iterations

/-- A contact that a sharp search finds shows the origin to be an interior point of the difference
body, if the centre is one. -/
theorem origin_mem_interior_of_penetration? {d : DifferenceBody ℝ} {config : PortalConfig ℝ}
    {points : Set (Vec3 ℝ)} (hd : d.Within points) (hcenter : d.center.v ∈ interior points)
    (htolerance : 0 ≤ config.tolerance) (hsharp : d.SharpContact config) {contact : Contact ℝ}
    (h : d.penetration? config = some contact) : (0 : Vec3 ℝ) ∈ interior points := by
  by_cases htiny : Portal.isTinyVector d.center.v = true
  · rwa [← hsharp.center htiny]
  have hv0 : (Portal.interiorPoint d).v ∈ interior points := by
    simpa only [Portal.interiorPoint, htiny, Bool.false_eq_true, if_false] using hcenter
  rcases hdiscover : Portal.discover d config.iterations with _ | _ | _ | v1 | p
  · simp [penetration?, hdiscover] at h
  · simp [penetration?, hdiscover] at h
  · simp [penetration?, hdiscover] at h
  · obtain ⟨rfl, hahead, -⟩ := Portal.discover_segment hdiscover
    have hpos := Portal.zeroWidth_pos.trans_le ((Portal.isAhead_iff _ _).mp hahead)
    obtain ⟨hs, ht, hbalance⟩ := Portal.segment_balance (Portal.interiorPoint_ne_zero d)
      (hsharp.segment _ hdiscover) hpos
    exact Portal.origin_mem_interior_of_balance hd.convex hv0
      (hd.support _ (Portal.towards_isDirection d)) hs ht.le hbalance
  · obtain ⟨hw1, hw2, hrefined⟩ := hsharp.portal p hdiscover
    obtain ⟨hp0, direction, hcompleted⟩ := Portal.discover_portal hdiscover
    simp only [penetration?, hdiscover] at h
    rcases hrefine : p.refine d config.tolerance config.iterations with _ | _ | q
    · simp [hrefine] at h
    · simp [hrefine] at h
    · simp only [hrefine] at h
      obtain ⟨hinside, haround, hbeyond⟩ := Portal.refine_sound hd _
        (hcompleted.inside hd (hp0 ▸ interior_subset hv0)) (hcompleted.aroundRay hw1 hw2) hrefined
        hrefine
      obtain ⟨hpushedInside, hpushed⟩ := Portal.pushOut_sound hd htolerance config.iterations
        hinside ⟨haround, Portal.w0_nonneg hbeyond⟩ (hsharp.pushed p q hdiscover hrefine)
      -- No replacement changes the interior point.
      have hkept (p : Portal ℝ) (hp : p.v0.v ∈ interior points)
          (_ : ¬ p.reachesTolerance (d.support p.direction) p.direction config.tolerance = true) :
          (p.expand (d.support p.direction)).v0.v ∈ interior points := by
        rwa [Portal.expand_v0]
      obtain ⟨hq0, -⟩ := Portal.refine_induction (P := fun p ↦ p.v0.v ∈ interior points) hkept _
        (hp0 ▸ hv0) hrefine
      obtain ⟨hpushed0, -⟩ := Portal.pushOut_induction (P := fun p ↦ p.v0.v ∈ interior points)
        hkept config.iterations hq0
      exact hpushed.origin_mem_interior hd.convex hpushedInside hpushed0 h

end DifferenceBody

end Collision
