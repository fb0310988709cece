import Collision.Proofs.Space.Axes

/-!
# Right-handed frames

An orthonormal frame is right-handed if its determinant is one. The volume that three vectors span
does not see which of them is multiplied last (`Vec3.dot_cross`), so completing two perpendicular
directions by their vector product makes a right-handed frame; a product of right-handed frames is
one (`Mat3.RightHanded.mul`). So are the frames along which boxes are laid: those that complete any
two vectors (`frameAlong_rightHanded`), that turn about an axis or by three angles, and the axes of
a triangle.
-/

set_option autoImplicit false
set_option relaxedAutoImplicit false

namespace Collision

theorem Vec3.dot_cross (u v w : Vec3 ℝ) : u.dot (v.cross w) = (u.cross v).dot w := by
  simp only [dot_eq, cross]
  ring

namespace Mat3

/-- The columns are perpendicular unit vectors, the third one on the side of the product of the
first two. -/
structure RightHanded (m : Mat3 ℝ) : Prop extends m.Orthonormal where
  det_eq : m.det = 1

theorem det_mul (m n : Mat3 ℝ) : (m * n).det = m.det * n.det := by
  show (m.mulVec n.col0).dot ((m.mulVec n.col1).cross (m.mulVec n.col2)) = _
  simp only [det, mulVec_eq, Vec3.dot_eq, Vec3.cross, Vec3.add_x, Vec3.add_y, Vec3.add_z,
    Vec3.smul_x, Vec3.smul_y, Vec3.smul_z]
  ring

theorem RightHanded.mul {m n : Mat3 ℝ} (hm : m.RightHanded) (hn : n.RightHanded) :
    (m * n).RightHanded where
  toOrthonormal := hm.toOrthonormal.mul hn.toOrthonormal
  det_eq := by rw [det_mul, hm.det_eq, hn.det_eq, one_mul]

theorem identity_rightHanded : (identity : Mat3 ℝ).RightHanded where
  toOrthonormal := identity_orthonormal
  det_eq := by simp [det, identity, Vec3.axis, Vec3.ofFn, Vec3.cross, Vec3.dot_eq]

theorem rotationAbout_rightHanded {u : Vec3 ℝ} (hu : u.IsDirection) (angle : ℝ) :
    (rotationAbout u angle).RightHanded where
  toOrthonormal := rotationAbout_orthonormal hu angle
  det_eq := by
    unfold rotationAbout
    split_ifs
    · exact identity_rightHanded.det_eq
    · have hunit : u.x * u.x + u.y * u.y + u.z * u.z = 1 := hu
      have hcircle := Real.sin_sq_add_cos_sq angle
      simp [det, ofRows, Vec3.cross, Vec3.dot_eq]
      grind

theorem ofEuler_rightHanded (roll pitch yaw : ℝ) : (ofEuler roll pitch yaw).RightHanded where
  toOrthonormal := ofEuler_orthonormal roll pitch yaw
  det_eq := by
    have hroll := Real.sin_sq_add_cos_sq roll
    have hpitch := Real.sin_sq_add_cos_sq pitch
    have hyaw := Real.sin_sq_add_cos_sq yaw
    simp [det, ofEuler, ofRows, Vec3.cross, Vec3.dot_eq]
    linear_combination (Real.sin pitch ^ 2 + Real.cos pitch ^ 2) *
      (Real.sin yaw ^ 2 + Real.cos yaw ^ 2) * hroll +
      (Real.sin yaw ^ 2 + Real.cos yaw ^ 2) * hpitch + hyaw

end Mat3

/-! ### Completing a frame -/

theorem rightHanded_of_first_two {x y : Vec3 ℝ} (h : (Mat3.mk x y (x.cross y)).Orthonormal) :
    (Mat3.mk x y (x.cross y)).RightHanded where
  toOrthonormal := h
  det_eq := (Vec3.dot_cross x y (x.cross y)).trans h.unit2

theorem rightHanded_of_first_last {x z : Vec3 ℝ} (h : (Mat3.mk x (z.cross x) z).Orthonormal) :
    (Mat3.mk x (z.cross x) z).RightHanded where
  toOrthonormal := h
  det_eq := by
    show x.dot ((z.cross x).cross z) = 1
    rw [Vec3.dot_comm, ← Vec3.dot_cross]
    exact h.unit1

theorem frameAlong_rightHanded (a b : Vec3 ℝ) : (frameAlong a b).RightHanded := by
  have horthonormal := frameAlong_orthonormal a b
  unfold frameAlong at horthonormal ⊢
  rcases ha : a.unit? shortestDirection with _ | x
  · exact Mat3.identity_rightHanded
  · rw [ha] at horthonormal
    exact rightHanded_of_first_two horthonormal

theorem frameOfEigen_rightHanded (values : Vec3 ℝ) (vectors : Mat3 ℝ) :
    (frameOfEigen values vectors).RightHanded := by
  unfold frameOfEigen
  split
  · exact frameAlong_rightHanded _ _
  · exact Mat3.identity_rightHanded

namespace OrientedBox

theorem caliperAxes_rightHanded {base : Mat3 ℝ} (hbase : base.RightHanded) (rotations : ℕ) :
    ∀ axes ∈ caliperAxes base rotations, axes.RightHanded := by
  intro axes haxes
  obtain ⟨k, -, rfl⟩ := List.mem_map.mp haxes
  have hmajor : base.col0.IsDirection := hbase.unit0
  exact (Mat3.rotationAbout_rightHanded (Vec3.normalize_isDirection hmajor.ne_zero) _).mul hbase

theorem gridAxes_rightHanded (rotations : ℕ) :
    ∀ axes ∈ (gridAxes rotations : List (Mat3 ℝ)), axes.RightHanded := by
  intro axes haxes
  obtain ⟨roll, -, haxes⟩ := List.mem_flatMap.mp haxes
  obtain ⟨pitch, -, haxes⟩ := List.mem_flatMap.mp haxes
  obtain ⟨yaw, -, rfl⟩ := List.mem_map.mp haxes
  exact Mat3.ofEuler_rightHanded roll pitch yaw

theorem triangleAxes_rightHanded (t : Triangle ℝ) : (triangleAxes t).RightHanded := by
  have horthonormal := triangleAxes_orthonormal t
  unfold triangleAxes at horthonormal ⊢
  dsimp only at horthonormal ⊢
  generalize (Scalar.lastMaxBy? Vec3.normSq t.edges).getD Vec3.zero = longest at horthonormal ⊢
  rcases he : longest.unit? shortestAxis with _ | e
  · exact Mat3.identity_rightHanded
  · rcases hn : t.faceAxis.unit? shortestAxis with _ | n
    · exact Mat3.identity_rightHanded
    · rw [he, hn] at horthonormal
      exact rightHanded_of_first_last horthonormal

end OrientedBox

end Collision
