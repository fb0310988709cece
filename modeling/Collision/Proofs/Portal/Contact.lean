import Collision.Proofs.Portal.Boxes
import Collision.Proofs.Shape.Closest

/-!
# What the contact of portal refinement separates

Moving the second of two bodies along the normal of their contact by its depth leaves a direction
along which the bodies overlap by no more than the tolerance (`Placed.separated_by_contact`). The
contact is read off the point of the last portal triangle closest to the origin, which may lie on
the face, an edge or a corner; wherever it is, it lies in the plane of the triangle, and along the
normal of that plane the difference body reaches no more than the tolerance past it. That the
triangle has a normal is `Portal.Proper`.
-/

set_option autoImplicit false
set_option relaxedAutoImplicit false

namespace Collision

/-- The contact moves the difference body back so far that it reaches at most `width` past the
origin along the direction. -/
def DifferenceBody.SeparatedAlong (d : DifferenceBody ℝ) (contact : Contact ℝ) (u : Vec3 ℝ)
    (width : ℝ) : Prop :=
  contact.normal.IsDirection ∧ 0 < contact.depth ∧ u.IsDirection ∧
    (d.support u).v.dot u - (contact.normal * contact.depth).dot u ≤ width

/-- No search for the contact runs out of rounds: the push to the boundary gets there. -/
def DifferenceBody.PushSuffices (d : DifferenceBody ℝ) (config : PortalConfig ℝ) : Prop :=
  ∀ p q, Portal.discover d config.iterations = .portal p →
    p.refine d config.tolerance config.iterations = .encloses q →
      (q.pushOut d config.tolerance config.iterations).2 = true

namespace Portal

/-- A vector that is given a unit vector is that unit vector times its length. -/
theorem unit?_mul_norm {v u : Vec3 ℝ} (h : v.unit? zeroWidth = some u) :
    u.IsDirection ∧ 0 < v.norm ∧ u * v.norm = v := by
  obtain ⟨hlong, hne, rfl, hu⟩ := Vec3.unit?_eq_some zeroWidth_pos.le h
  refine ⟨hu, zeroWidth_pos.trans hlong, ?_⟩
  rw [Vec3.mul_eq_smul, smul_smul, Vec3.norm_eq_norm, mul_inv_cancel₀ (norm_ne_zero_iff.mpr hne),
    one_smul]

/-- The contact of a proper portal that the boundary is within the tolerance of. -/
theorem separatedAlong_of_contact? {d : DifferenceBody ℝ} {tolerance : ℝ} {p : Portal ℝ}
    {contact : Contact ℝ} (hp : p.Proper)
    (hreach : p.reachesTolerance (d.support p.direction) p.direction tolerance = true)
    (h : p.contact? = some contact) : d.SeparatedAlong contact p.direction tolerance := by
  obtain ⟨normal, hunit, rfl⟩ := Option.map_eq_some_iff.mp h
  obtain ⟨hnormal, hdepth, hmul⟩ := unit?_mul_norm hunit
  obtain ⟨hsecond, hthird⟩ := p.corners_level
  have hplane := Triangle.closestPoint_dot (t := ⟨p.v1.v, p.v2.v, p.v3.v⟩) hsecond hthird Vec3.zero
  have hle := reachesTolerance_iff.mp hreach
  refine ⟨hnormal, hdepth, hp.direction_isDirection, ?_⟩
  show _ - Vec3.dot (normal * Vec3.norm _) _ ≤ _
  rw [hmul, hplane]
  linarith

end Portal

namespace DifferenceBody

/-- A contact found on the segment moves the difference body back behind the origin along the way
to the origin. -/
theorem separatedAlong_of_segment {d : DifferenceBody ℝ} {config : PortalConfig ℝ}
    {contact : Contact ℝ} {v1 : DifferencePoint ℝ}
    (hdiscover : Portal.discover d config.iterations = .segment v1)
    (h : d.penetration? config = some contact) :
    d.SeparatedAlong contact (-(Portal.interiorPoint d).v.normalize) 0 := by
  obtain ⟨rfl, -, -⟩ := Portal.discover_segment hdiscover
  simp only [penetration?, hdiscover] at h
  obtain ⟨normal, hunit, rfl⟩ := Option.map_eq_some_iff.mp h
  obtain ⟨hnormal, hdepth, hmul⟩ := Portal.unit?_mul_norm hunit
  refine ⟨hnormal, hdepth, Portal.towards_isDirection d, ?_⟩
  show _ - Vec3.dot (normal * Vec3.norm _) _ ≤ _
  rw [hmul, sub_self]

theorem separatedAlong_of_penetration? {d : DifferenceBody ℝ} {config : PortalConfig ℝ}
    {contact : Contact ℝ} (htolerance : 0 ≤ config.tolerance) (hrounds : d.PushSuffices config)
    (h : d.penetration? config = some contact) :
    ∃ u, d.SeparatedAlong contact u config.tolerance ∧
      ((∃ v1, Portal.discover d config.iterations = .segment v1) →
        d.SeparatedAlong contact u 0) := by
  rcases hdiscover : Portal.discover d config.iterations with _ | _ | _ | v1 | p
  · simp [penetration?, hdiscover] at h
  · simp [penetration?, hdiscover] at h
  · simp [penetration?, hdiscover] at h
  · obtain ⟨hnormal, hdepth, hu, hle⟩ := separatedAlong_of_segment hdiscover h
    exact ⟨_, ⟨hnormal, hdepth, hu, hle.trans htolerance⟩, fun _ ↦ ⟨hnormal, hdepth, hu, hle⟩⟩
  · simp only [penetration?, hdiscover] at h
    rcases hrefine : p.refine d config.tolerance config.iterations with _ | _ | q
    · simp [hrefine] at h
    · simp [hrefine] at h
    · simp only [hrefine] at h
      obtain ⟨-, direction, hcompleted⟩ := Portal.discover_portal hdiscover
      have hstep (p : Portal ℝ) (hp : p.Proper)
          (hgain : ¬ p.reachesTolerance (d.support p.direction) p.direction config.tolerance =
            true) : (p.expand (d.support p.direction)).Proper :=
        hp.expand_of_not_reachesTolerance htolerance hgain
      obtain ⟨hproper, -⟩ := Portal.refine_induction hstep _ hcompleted.proper hrefine
      obtain ⟨hpushed, hreached⟩ := Portal.pushOut_induction hstep config.iterations hproper
      have hboundary := hreached (hrounds p q hdiscover hrefine)
      refine ⟨_, Portal.separatedAlong_of_contact? hpushed hboundary h, ?_⟩
      rintro ⟨v1, hv1⟩
      cases hv1

end DifferenceBody

namespace Placed

/-- The farthest that the first body reaches past the second along a unit vector, when the second
has been moved. -/
theorem supportPoint_isGreatest_translated {a b : Part ℝ} (ha : a.Supported) (hb : b.Supported)
    {poseA poseB : Pose ℝ} (hA : poseA.Rigid) (hB : poseB.Rigid) {u : Vec3 ℝ}
    (hu : u.IsDirection) (offset : Vec3 ℝ) :
    IsGreatest
      {x | ∃ p ∈ a.regionAt poseA, ∃ q ∈ b.regionAt (poseB.translated offset), x = u.dot (p - q)}
      (((DifferenceBody.ofPlaced ⟨.part a, poseA⟩ ⟨.part b, poseB⟩).support u).v.dot u -
        offset.dot u) := by
  obtain ⟨⟨p, hp, q, hq, hpq⟩, hmax⟩ := supportPoint_isGreatest ha hb hA hB hu
  constructor
  · refine ⟨p, hp, q + offset, ?_, ?_⟩
    · rwa [Part.mem_regionAt_translated, add_sub_cancel_right]
    · rw [hpq, ← sub_sub, Vec3.dot_sub u (p - q), Vec3.dot_comm offset]
  · rintro _ ⟨p, hp, q, hq, rfl⟩
    have hle := hmax ⟨p, hp, _, Part.mem_regionAt_translated.mp hq, rfl⟩
    rw [← sub_add, Vec3.dot_add, Vec3.dot_comm u offset] at hle
    linarith

/-- Two placed bodies with farthest points, a tolerance that is not negative, and a contact that
portal refinement finds without running out of rounds. Its normal has length one and its depth is
positive; and when the second body is moved along the normal by the depth, there is a direction
along which the first body reaches at most the tolerance past it, and not past it at all if the
origin was found on the segment. -/
theorem separated_by_contact (c : PortalConfig ℝ) (htolerance : 0 ≤ c.tolerance) (a b : Part ℝ)
    (ha : a.Supported) (hb : b.Supported) (poseA poseB : Pose ℝ) (hA : poseA.Rigid)
    (hB : poseB.Rigid) (contact : Contact ℝ)
    (hrounds : (DifferenceBody.ofPlaced (⟨.part a, poseA⟩ : Placed ℝ)
      ⟨.part b, poseB⟩).PushSuffices c)
    (h : (⟨.part a, poseA⟩ : Placed ℝ).generalContact? ⟨.part b, poseB⟩ c = some contact) :
    let body : DifferenceBody ℝ := .ofPlaced ⟨.part a, poseA⟩ ⟨.part b, poseB⟩
    let moved := poseB.translated (contact.normal * contact.depth)
    contact.normal.IsDirection ∧ 0 < contact.depth ∧
      ∃ (u : Vec3 ℝ) (largest : ℝ), u.IsDirection ∧
        IsGreatest {x | ∃ p ∈ a.regionAt poseA, ∃ q ∈ b.regionAt moved, x = u.dot (p - q)} largest ∧
        largest ≤ c.tolerance ∧
        ((∃ v1, Portal.discover body c.iterations = .segment v1) → largest ≤ 0) := by
  intro body moved
  obtain ⟨u, ⟨hnormal, hdepth, hu, hle⟩, hsegment⟩ :=
    DifferenceBody.separatedAlong_of_penetration? htolerance hrounds h
  refine ⟨hnormal, hdepth, u, _, hu,
    supportPoint_isGreatest_translated ha hb hA hB hu _, hle, fun hfound ↦ ?_⟩
  exact (hsegment hfound).2.2.2

/-- Two boxes, the first one turned. The search finds a portal, replaces one of its corners before it
lies beyond the origin, and another before it lies on the boundary. -/
theorem separated_by_contact_of_turned_boxes :
    let c : PortalConfig ℝ := .standard
    let slab : Part ℝ := .bare (.box ⟨27, 27, 9⟩)
    let bar : Part ℝ := .bare (.box ⟨27, 9, 9⟩)
    let turned : Pose ℝ := ⟨⟨9, -9, 27⟩, ⟨1 / 3, 2 / 3, 2 / 3, 0⟩⟩
    let d : DifferenceBody ℝ := .ofPlaced ⟨.part slab, turned⟩ ⟨.part bar, .identity⟩
    Primitive.boxOfHalf? ⟨27, 27, 9⟩ = .ok slab.primitive ∧
      Primitive.boxOfHalf? ⟨27, 9, 9⟩ = .ok bar.primitive ∧ 0 ≤ c.tolerance ∧ slab.Supported ∧
      bar.Supported ∧ turned.Rigid ∧ (Pose.identity : Pose ℝ).Rigid ∧ d.PushSuffices c ∧
      (∃ p, Portal.discover d c.iterations = .portal p ∧
        let q := p.expand (d.support p.direction)
        p.refine d c.tolerance c.iterations = .encloses q ∧
          q.pushOut d c.tolerance c.iterations = (q.expand (d.support q.direction), true)) ∧
      ∃ contact, (⟨.part slab, turned⟩ : Placed ℝ).generalContact? ⟨.part bar, .identity⟩ c =
          some contact ∧ contact.normal = ⟨0, 0, -1⟩ ∧ contact.depth = 13 ∧
        ∃ (u : Vec3 ℝ) (largest : ℝ), u.IsDirection ∧
          IsGreatest {x | ∃ p ∈ slab.regionAt turned,
            ∃ q ∈ bar.regionAt (Pose.identity.translated (contact.normal * contact.depth)),
            x = u.dot (p - q)} largest ∧ largest ≤ c.tolerance := by
  intro c slab bar turned d
  have hslab : Primitive.boxOfHalf? ⟨27, 27, 9⟩ = .ok slab.primitive := by
    apply Primitive.boxOfHalf?_of_pos <;> norm_num
  have hbar : Primitive.boxOfHalf? ⟨27, 9, 9⟩ = .ok bar.primitive := by
    apply Primitive.boxOfHalf?_of_pos <;> norm_num
  have hslabSupported : slab.Supported :=
    ⟨trivial, Primitive.boxOfHalf?_valid hslab, by decide, by decide⟩
  have hbarSupported : bar.Supported :=
    ⟨trivial, Primitive.boxOfHalf?_valid hbar, by decide, by decide⟩
  have hturned : turned.Rigid := by norm_num [Pose.Rigid, Rotation.isUnit_iff, turned]
  obtain ⟨hrounds, hnonneg, hsmall⟩ :
      2 ≤ c.iterations ∧ 0 ≤ c.tolerance ∧ c.tolerance ≤ 1 := PortalConfig.standard_bounds
  obtain ⟨p, hdiscover, hrefine, hpush, hr⟩ :=
    DifferenceBody.search_turnedBoxes (d := d) rfl hrounds hnonneg hsmall
  have hsuffices : d.PushSuffices c := by
    intro p' q' hp' hq'
    obtain rfl := Discovery.portal.inj (hdiscover.symm.trans hp')
    obtain rfl := Refinement.encloses.inj (hrefine.symm.trans hq')
    rw [hpush]
  obtain ⟨contact, hcontact, hnormal, hdepth⟩ := DifferenceBody.contact_turnedBoxes hr
  have hfound : (⟨.part slab, turned⟩ : Placed ℝ).generalContact? ⟨.part bar, .identity⟩ c =
      some contact := by
    show d.penetration? c = some contact
    simp only [DifferenceBody.penetration?, hdiscover, hrefine, hpush]
    exact hcontact
  obtain ⟨-, -, u, largest, hu, hgreatest, hle, -⟩ := separated_by_contact c hnonneg slab bar
    hslabSupported hbarSupported turned .identity hturned Pose.identity_rigid contact hsuffices
    hfound
  exact ⟨hslab, hbar, hnonneg, hslabSupported, hbarSupported, hturned, Pose.identity_rigid,
    hsuffices, ⟨p, hdiscover, hrefine, hpush⟩, contact, hfound, hnormal, hdepth, u, largest, hu,
    hgreatest, hle⟩

end Placed

end Collision
