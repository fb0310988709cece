import Collision.Proofs.Shape.Closest

/-!
# Height fields

The diagonal of a grid cell cuts it into two halves (`HeightField.Half`). The tile over a half holds
the points over it at the height blended from its three corners (`HeightField.mem_tile_iff`), so
what lies under the tiles is settled in the coordinates of the cell. A point inside a half tells the
cell and the half (`HeightField.Half.HoldsInside.unique`), and a point of the grid lies in some half
(`HeightField.mem_grid_iff`).

That tiles which meet have one height there is not shown pair by pair. Every sample has a part in
the height over a point, `HeightField.share`, which falls off with the columns and rows between
them; over a half only its corners have one, and these are the weights of the blend. So all tiles
lie in the graph of one function (`HeightField.blend_eq_heightOver`), which is continuous and has
the samples for values (`HeightField.heightOver_sample`).

* `HeightField.ofSamples_surface` collects this for the mesh of a height field.
-/

set_option autoImplicit false
set_option relaxedAutoImplicit false

open scoped Topology

namespace Collision

namespace HeightField

/-! ### Cells -/

/-- The number of the sample in a column and a row. -/
def index (nx i j : ℕ) : ℕ := j * nx + i

theorem index_mod {nx i : ℕ} (hi : i < nx) (j : ℕ) : index nx i j % nx = i := by
  rw [index, Nat.mul_add_mod_self_right, Nat.mod_eq_of_lt hi]

theorem index_div {nx i : ℕ} (hi : i < nx) (j : ℕ) : index nx i j / nx = j := by
  rw [index, mul_comm, Nat.mul_add_div (by omega), Nat.div_eq_of_lt hi, add_zero]

theorem index_lt {nx ny i j : ℕ} (hi : i < nx) (hj : j < ny) : index nx i j < nx * ny := by
  have hrows : (j + 1) * nx ≤ ny * nx := Nat.mul_le_mul_right nx hj
  rw [index]
  linarith

/-- A half of a grid cell, under or over the diagonal through its first corner. -/
inductive Half where
  | lower
  | upper

namespace Half

/-- The face that covers the half of the grid cell in a column and a row. -/
def face (nx i j : ℕ) : Half → Face
  | lower => ⟨index nx i j, index nx (i + 1) j, index nx (i + 1) (j + 1)⟩
  | upper => ⟨index nx i j, index nx (i + 1) (j + 1), index nx i (j + 1)⟩

/-- The half holds a point of the unit cell. -/
def Holds (s t : ℝ) : Half → Prop
  | lower => 0 ≤ t ∧ t ≤ s ∧ s ≤ 1
  | upper => 0 ≤ s ∧ s ≤ t ∧ t ≤ 1

/-- The half holds a point of the unit cell, and not on its edges. -/
def HoldsInside (s t : ℝ) : Half → Prop
  | lower => 0 < t ∧ t < s ∧ s < 1
  | upper => 0 < s ∧ s < t ∧ t < 1

theorem Holds.unit {half : Half} {s t : ℝ} (h : half.Holds s t) :
    (0 ≤ s ∧ s ≤ 1) ∧ 0 ≤ t ∧ t ≤ 1 := by
  cases half with
  | lower => exact ⟨⟨h.1.trans h.2.1, h.2.2⟩, h.1, h.2.1.trans h.2.2⟩
  | upper => exact ⟨⟨h.1, h.2.1.trans h.2.2⟩, h.1.trans h.2.1, h.2.2⟩

theorem HoldsInside.unit {half : Half} {s t : ℝ} (h : half.HoldsInside s t) :
    (0 < s ∧ s < 1) ∧ 0 < t ∧ t < 1 := by
  cases half with
  | lower => exact ⟨⟨h.1.trans h.2.1, h.2.2⟩, h.1, h.2.1.trans h.2.2⟩
  | upper => exact ⟨⟨h.1, h.2.1.trans h.2.2⟩, h.1.trans h.2.1, h.2.2⟩

/-- The height over a point of the unit cell, from the heights at the corners. -/
noncomputable def blend (height : ℕ → ℕ → ℝ) (s t : ℝ) : Half → ℝ
  | lower => (1 - s) * height 0 0 + (s - t) * height 1 0 + t * height 1 1
  | upper => (1 - t) * height 0 0 + s * height 1 1 + (t - s) * height 0 1

end Half

theorem mem_cellFaces {nx i j : ℕ} {f : Face} :
    f ∈ cellFaces nx i j ↔ ∃ half : Half, f = half.face nx i j := by
  have hrow : index nx i (j + 1) = j * nx + i + nx := by
    rw [index]
    ring
  have hcorner : index nx (i + 1) (j + 1) = j * nx + i + nx + 1 := by
    rw [index]
    ring
  have hcells : cellFaces nx i j = [Half.lower.face nx i j, Half.upper.face nx i j] := by
    simp only [cellFaces, Half.face, hrow, hcorner]
    rfl
  rw [hcells]
  constructor
  · intro h
    rcases List.mem_pair.mp h with rfl | rfl
    exacts [⟨.lower, rfl⟩, ⟨.upper, rfl⟩]
  · rintro ⟨_ | _, rfl⟩ <;> simp

theorem mem_gridFaces {nx ny : ℕ} {f : Face} : f ∈ gridFaces nx ny ↔
    ∃ i j, i + 1 < nx ∧ j + 1 < ny ∧ ∃ half : Half, f = half.face nx i j := by
  simp only [gridFaces, List.mem_flatMap, List.mem_range, mem_cellFaces]
  constructor
  · rintro ⟨j, hj, i, hi, h⟩
    exact ⟨i, j, by omega, by omega, h⟩
  · rintro ⟨i, j, hi, hj, h⟩
    exact ⟨j, by omega, i, by omega, h⟩

theorem length_gridFaces (nx ny : ℕ) :
    (gridFaces nx ny).length = 2 * (nx - 1) * (ny - 1) := by
  simp [gridFaces, cellFaces, List.length_flatMap]
  ring

theorem gridFaces_nodup (nx ny : ℕ) : (gridFaces nx ny).Nodup := by
  -- The first corner tells the cell.
  have hfirst {i j : ℕ} {f : Face} (hf : f ∈ cellFaces nx i j) : f.first = index nx i j := by
    obtain ⟨_ | _, rfl⟩ := mem_cellFaces.mp hf <;> rfl
  refine List.nodup_flatMap.mpr ⟨fun j _ ↦ List.nodup_flatMap.mpr ⟨fun i _ ↦ ?_, ?_⟩, ?_⟩
  · simp [cellFaces]
  · refine List.nodup_range.pairwise_of_forall_ne fun i hi i' hi' hne f hf hf' ↦ hne ?_
    have hcolumn := congrArg (· % nx) ((hfirst hf).symm.trans (hfirst hf'))
    have hi := List.mem_range.mp hi
    have hi' := List.mem_range.mp hi'
    simpa only [index_mod (show i < nx by omega), index_mod (show i' < nx by omega)] using hcolumn
  · refine List.nodup_range.pairwise_of_forall_ne fun j _ j' _ hne f hf hf' ↦ hne ?_
    obtain ⟨i, hi, hf⟩ := List.mem_flatMap.mp hf
    obtain ⟨i', hi', hf'⟩ := List.mem_flatMap.mp hf'
    have hrow := congrArg (· / nx) ((hfirst hf).symm.trans (hfirst hf'))
    have hi := List.mem_range.mp hi
    have hi' := List.mem_range.mp hi'
    simpa only [index_div (show i < nx by omega), index_div (show i' < nx by omega)] using hrow

theorem gridFaces_inRange {nx ny : ℕ} : ∀ f ∈ gridFaces nx ny, f.InRange (nx * ny) := by
  intro f hf
  obtain ⟨i, j, hi, hj, _ | _, rfl⟩ := mem_gridFaces.mp hf
  · exact ⟨index_lt (by omega) (by omega), index_lt hi (by omega), index_lt hi hj⟩
  · exact ⟨index_lt (by omega) (by omega), index_lt hi hj, index_lt (by omega) hj⟩

/-! ### Tiles -/

section Tiles

variable (nx : ℕ) (dx dy : ℝ) (heights : List ℝ)

/-- The vertex of a number. -/
noncomputable def sample (k : ℕ) : Vec3 ℝ := vertex nx dx dy k (heights.getD k 0)

/-- The triangle over a face. -/
noncomputable def tile (f : Face) : Triangle ℝ :=
  ⟨sample nx dx dy heights f.first, sample nx dx dy heights f.second,
    sample nx dx dy heights f.third⟩

/-- The height at the sample in a column and a row. -/
noncomputable def heightAt (i j : ℕ) : ℝ := heights.getD (index nx i j) 0

variable {nx dx dy heights}

theorem sample_index {i : ℕ} (hi : i < nx) (j : ℕ) :
    sample nx dx dy heights (index nx i j) = ⟨i * dx, j * dy, heightAt nx heights i j⟩ := by
  rw [sample, vertex, index_mod hi, index_div hi]
  rfl

/-- The points of a tile, by their place in the grid cell. -/
theorem mem_tile_iff (hdx : 0 < dx) (hdy : 0 < dy) {i j : ℕ} (hi : i + 1 < nx) (half : Half)
    {p : Vec3 ℝ} : p ∈ Vec3.hull (tile nx dx dy heights (half.face nx i j)).corners ↔
      half.Holds (p.x / dx - i) (p.y / dy - j) ∧
        p.z = half.blend (fun a b ↦ heightAt nx heights (i + a) (j + b)) (p.x / dx - i)
          (p.y / dy - j) := by
  have hx (s : ℝ) : (i + s) * dx / dx - i = s := by
    rw [mul_div_cancel_right₀ _ hdx.ne', add_sub_cancel_left]
  have hy (t : ℝ) : (j + t) * dy / dy - j = t := by
    rw [mul_div_cancel_right₀ _ hdy.ne', add_sub_cancel_left]
  have hpx : (i + (p.x / dx - i)) * dx = p.x := by field_simp; ring
  have hpy : (j + (p.y / dy - j)) * dy = p.y := by field_simp; ring
  rw [Triangle.mem_hull_corners]
  cases half with
  | lower =>
    have hpoint (y z : ℝ) : (tile nx dx dy heights (Half.lower.face nx i j)).pointAt y z =
        ⟨(i + (y + z)) * dx, (j + z) * dy,
          Half.lower.blend (fun a b ↦ heightAt nx heights (i + a) (j + b)) (y + z) z⟩ := by
      simp only [tile, Half.face, sample_index hi, sample_index (Nat.lt_of_succ_lt hi)]
      ext <;> simp [Triangle.pointAt, Half.blend] <;> ring
    constructor
    · rintro ⟨y, z, hynonneg, hznonneg, hyz, rfl⟩
      simp only [hpoint, hx, hy]
      exact ⟨⟨hznonneg, by linarith, hyz⟩, trivial⟩
    · rintro ⟨⟨ht, hts, hs⟩, hz⟩
      refine ⟨_, _, sub_nonneg.mpr hts, ht, by linarith, ?_⟩
      rw [hpoint, sub_add_cancel, ← hz, hpx, hpy]
  | upper =>
    have hpoint (y z : ℝ) : (tile nx dx dy heights (Half.upper.face nx i j)).pointAt y z =
        ⟨(i + y) * dx, (j + (z + y)) * dy,
          Half.upper.blend (fun a b ↦ heightAt nx heights (i + a) (j + b)) y (z + y)⟩ := by
      simp only [tile, Half.face, sample_index hi, sample_index (Nat.lt_of_succ_lt hi)]
      ext <;> simp [Triangle.pointAt, Half.blend] <;> ring
    constructor
    · rintro ⟨y, z, hynonneg, hznonneg, hyz, rfl⟩
      simp only [hpoint, hx, hy]
      exact ⟨⟨hynonneg, by linarith, by linarith⟩, trivial⟩
    · rintro ⟨⟨hs, hst, ht⟩, hz⟩
      refine ⟨_, _, hs, sub_nonneg.mpr hst, by linarith, ?_⟩
      rw [hpoint, sub_add_cancel, ← hz, hpx, hpy]

/-- The tiles are seen from above in the order of their corners. -/
theorem tile_ccw (hdx : 0 < dx) (hdy : 0 < dy) {i : ℕ} (hi : i + 1 < nx) (j : ℕ) (half : Half) :
    let t := tile nx dx dy heights (half.face nx i j)
    0 < ((t.b - t.a).cross (t.c - t.a)).z := by
  intro t
  have hcross : ((t.b - t.a).cross (t.c - t.a)).z = dx * dy := by
    cases half <;>
      simp only [t, tile, Half.face, sample_index hi, sample_index (Nat.lt_of_succ_lt hi)] <;>
      simp [Vec3.cross] <;> ring
  rw [hcross]
  exact mul_pos hdx hdy

/-! ### Footprints -/

/-- What lies under a triangle. -/
def footprint (t : Triangle ℝ) : Set (ℝ × ℝ) := (fun p : Vec3 ℝ ↦ (p.x, p.y)) '' Vec3.hull t.corners

theorem mem_footprint_iff (hdx : 0 < dx) (hdy : 0 < dy) {i j : ℕ} (hi : i + 1 < nx) (half : Half)
    {q : ℝ × ℝ} : q ∈ footprint (tile nx dx dy heights (half.face nx i j)) ↔
      half.Holds (q.1 / dx - i) (q.2 / dy - j) := by
  constructor
  · rintro ⟨p, hp, rfl⟩
    exact ((mem_tile_iff hdx hdy hi half).mp hp).1
  · intro h
    exact ⟨⟨q.1, q.2, half.blend (fun a b ↦ heightAt nx heights (i + a) (j + b)) (q.1 / dx - i)
      (q.2 / dy - j)⟩, (mem_tile_iff hdx hdy hi half).mpr ⟨h, rfl⟩, rfl⟩

/-- From an inner point of a set a short way in any direction stays in it. -/
theorem exists_step_mem {s : Set (ℝ × ℝ)} {q : ℝ × ℝ} (h : q ∈ interior s) (direction : ℝ × ℝ) :
    ∃ step : ℝ, 0 < step ∧ q + step • direction ∈ s := by
  have hpath : Filter.Tendsto (fun step : ℝ ↦ q + step • direction) (𝓝 0) (𝓝 q) := by
    have hcontinuous : Continuous fun step : ℝ ↦ q + step • direction := by fun_prop
    simpa using hcontinuous.tendsto 0
  have hnear : ∀ᶠ step in 𝓝[>] (0 : ℝ), q + step • direction ∈ s :=
    (hpath.eventually (mem_interior_iff_mem_nhds.mp h)).filter_mono nhdsWithin_le_nhds
  obtain ⟨step, hstep, hpos⟩ := (hnear.and self_mem_nhdsWithin).exists
  exact ⟨step, hpos, hstep⟩

theorem holdsInside_of_mem_interior (hdx : 0 < dx) (hdy : 0 < dy) {i j : ℕ} (hi : i + 1 < nx)
    (half : Half) {q : ℝ × ℝ}
    (hq : q ∈ interior (footprint (tile nx dx dy heights (half.face nx i j)))) :
    half.HoldsInside (q.1 / dx - i) (q.2 / dy - j) := by
  have hstep (direction : ℝ × ℝ) : ∃ step : ℝ, 0 < step ∧
      half.Holds (q.1 / dx - i + step * direction.1) (q.2 / dy - j + step * direction.2) := by
    obtain ⟨step, hpos, hmem⟩ := exists_step_mem hq (direction.1 * dx, direction.2 * dy)
    refine ⟨step, hpos, ?_⟩
    rw [mem_footprint_iff hdx hdy hi] at hmem
    convert hmem using 1 <;> simp <;> field_simp <;> ring
  obtain ⟨left, hleft, hholdsLeft⟩ := hstep (-1, 0)
  obtain ⟨right, hright, hholdsRight⟩ := hstep (1, 0)
  obtain ⟨front, hfront, hholdsFront⟩ := hstep (0, -1)
  obtain ⟨back, hback, hholdsBack⟩ := hstep (0, 1)
  simp only [mul_neg, mul_one, mul_zero, add_zero] at hholdsLeft hholdsRight hholdsFront hholdsBack
  cases half with
  | lower =>
    exact ⟨by linarith [hholdsFront.1], by linarith [hholdsBack.2.1], by linarith [hholdsRight.2.2]⟩
  | upper =>
    exact ⟨by linarith [hholdsLeft.1], by linarith [hholdsRight.2.1], by linarith [hholdsBack.2.2]⟩

/-- A point inside a half of a grid cell tells the cell and the half. -/
theorem Half.HoldsInside.unique {u v : ℝ} {i j i' j' : ℕ} {half half' : Half}
    (h : half.HoldsInside (u - i) (v - j)) (h' : half'.HoldsInside (u - i') (v - j')) :
    i = i' ∧ j = j' ∧ half = half' := by
  have hsame {w : ℝ} {k l : ℕ} (hk : 0 < w - k ∧ w - k < 1) (hl : 0 < w - l ∧ w - l < 1) :
      k = l := by
    have hlt : (k : ℝ) < l + 1 := by linarith
    have hgt : (l : ℝ) < k + 1 := by linarith
    have hlt := Nat.lt_succ_iff.mp (by exact_mod_cast hlt : k < l + 1)
    have hgt := Nat.lt_succ_iff.mp (by exact_mod_cast hgt : l < k + 1)
    exact hlt.antisymm hgt
  obtain rfl := hsame h.unit.1 h'.unit.1
  obtain rfl := hsame h.unit.2 h'.unit.2
  refine ⟨rfl, rfl, ?_⟩
  cases half with
  | lower =>
    cases half' with
    | lower => rfl
    | upper => exact absurd h.2.1 h'.2.1.asymm
  | upper =>
    cases half' with
    | lower => exact absurd h.2.1 h'.2.1.asymm
    | upper => rfl

/-- A place along a side of the grid lies between two neighbouring samples. -/
theorem exists_between {u : ℝ} {n : ℕ} (hn : 2 ≤ n) (hu : 0 ≤ u) (hun : u ≤ (n - 1 : ℕ)) :
    ∃ i : ℕ, i + 1 < n ∧ 0 ≤ u - i ∧ u - i ≤ 1 := by
  rcases eq_or_lt_of_le hun with rfl | hlt
  · refine ⟨n - 2, by omega, ?_⟩
    have hcast : ((n - 1 : ℕ) : ℝ) - (n - 2 : ℕ) = 1 := by
      rw [← Nat.cast_sub (by omega)]
      have hone : n - 1 - (n - 2) = 1 := by omega
      rw [hone, Nat.cast_one]
    rw [hcast]
    exact ⟨zero_le_one, le_rfl⟩
  · have hfloor := (Nat.floor_lt hu).mpr hlt
    exact ⟨⌊u⌋₊, by omega, sub_nonneg.mpr (Nat.floor_le hu),
      by linarith [Nat.lt_floor_add_one u]⟩

/-- What lies under the tiles is the grid. -/
theorem mem_grid_iff (hdx : 0 < dx) (hdy : 0 < dy) {ny : ℕ} (hnx : 2 ≤ nx) (hny : 2 ≤ ny)
    {q : ℝ × ℝ} : (∃ f ∈ gridFaces nx ny, q ∈ footprint (tile nx dx dy heights f)) ↔
      (0 ≤ q.1 ∧ q.1 ≤ (nx - 1 : ℕ) * dx) ∧ 0 ≤ q.2 ∧ q.2 ≤ (ny - 1 : ℕ) * dy := by
  constructor
  · rintro ⟨f, hf, hq⟩
    obtain ⟨i, j, hi, hj, half, rfl⟩ := mem_gridFaces.mp hf
    obtain ⟨⟨hs, hs'⟩, ht, ht'⟩ := ((mem_footprint_iff hdx hdy hi half).mp hq).unit
    have hcolumns : ((i + 1 : ℕ) : ℝ) ≤ (nx - 1 : ℕ) := Nat.cast_le.mpr (by omega)
    have hrows : ((j + 1 : ℕ) : ℝ) ≤ (ny - 1 : ℕ) := Nat.cast_le.mpr (by omega)
    rw [Nat.cast_add, Nat.cast_one] at hcolumns hrows
    have hx := sub_nonneg.mp hs
    have hy := sub_nonneg.mp ht
    rw [le_div_iff₀ hdx] at hx
    rw [le_div_iff₀ hdy] at hy
    refine ⟨⟨le_trans (by positivity) hx, ?_⟩, le_trans (by positivity) hy, ?_⟩
    · rw [← div_le_iff₀ hdx]
      linarith
    · rw [← div_le_iff₀ hdy]
      linarith
  · rintro ⟨⟨hx, hx'⟩, hy, hy'⟩
    obtain ⟨i, hi, hs, hs'⟩ := exists_between hnx (div_nonneg hx hdx.le) ((div_le_iff₀ hdx).mpr hx')
    obtain ⟨j, hj, ht, ht'⟩ := exists_between hny (div_nonneg hy hdy.le) ((div_le_iff₀ hdy).mpr hy')
    rcases le_total (q.2 / dy - j) (q.1 / dx - i) with hts | hst
    · exact ⟨_, mem_gridFaces.mpr ⟨i, j, hi, hj, .lower, rfl⟩,
        (mem_footprint_iff hdx hdy hi .lower).mpr ⟨ht, hts, hs'⟩⟩
    · exact ⟨_, mem_gridFaces.mpr ⟨i, j, hi, hj, .upper, rfl⟩,
        (mem_footprint_iff hdx hdy hi .upper).mpr ⟨hs, hst, ht'⟩⟩

/-! ### Heights -/

variable (nx dx dy heights)

/-- The part that the height of a sample has in the height over a point that many columns and rows
after it. -/
noncomputable def share (a b : ℝ) : ℝ := max 0 (1 - (max 0 (max a b) - min 0 (min a b)))

/-- The height of the surface over a point. -/
noncomputable def heightOver (ny : ℕ) (x y : ℝ) : ℝ :=
  ∑ k ∈ Finset.range nx ×ˢ Finset.range ny,
    heightAt nx heights k.1 k.2 * share (x / dx - k.1) (y / dy - k.2)

variable {nx dx dy heights}

theorem share_swap (a b : ℝ) : share b a = share a b := by
  rw [share, share, max_comm b a, min_comm b a]

theorem share_eq_zero {a b : ℝ}
    (h : 1 ≤ a ∨ a ≤ -1 ∨ 1 ≤ b ∨ b ≤ -1 ∨ 1 ≤ a - b) : share a b = 0 := by
  have hmax := max_le_iff.mp (le_refl (max 0 (max a b)))
  have hmaxes := max_le_iff.mp hmax.2
  have hmin := le_min_iff.mp (le_refl (min 0 (min a b)))
  have hmins := le_min_iff.mp hmin.2
  refine max_eq_left ?_
  rcases h with h | h | h | h | h <;> linarith

/-- Over a lower half the corners share the height, and no other sample has a part in it. -/
theorem share_lower {u v : ℝ} {i j : ℕ} (h : Half.lower.Holds (u - i) (v - j)) (k l : ℕ) :
    share (u - k) (v - l) =
      if k = i ∧ l = j then 1 - (u - i) else if k = i + 1 ∧ l = j then u - i - (v - j)
        else if k = i + 1 ∧ l = j + 1 then v - j else 0 := by
  obtain ⟨ht, hts, hs⟩ := h
  have hfar (h : k + 1 ≤ i ∨ i + 2 ≤ k ∨ l + 1 ≤ j ∨ j + 2 ≤ l) : share (u - k) (v - l) = 0 := by
    refine share_eq_zero ?_
    rcases h with h | h | h | h <;> rify at h
    · exact .inl (by linarith)
    · exact .inr (.inl (by linarith))
    · exact .inr (.inr (.inl (by linarith)))
    · exact .inr (.inr (.inr (.inl (by linarith))))
  by_cases hnear : (k = i ∨ k = i + 1) ∧ (l = j ∨ l = j + 1)
  · obtain ⟨rfl | rfl, rfl | rfl⟩ := hnear
    · rw [share, max_eq_left hts, max_eq_right (ht.trans hts), min_eq_right hts, min_eq_left ht,
        max_eq_right (by linarith)]
      simp
    · rw [share_eq_zero (.inr (.inr (.inr (.inr ?_))))]
      · simp
      · push_cast
        linarith
    · have hst : u - (i + 1 : ℕ) ≤ v - l := by push_cast; linarith
      have hs' : u - (i + 1 : ℕ) ≤ 0 := by push_cast; linarith
      rw [share, max_eq_right hst, max_eq_right ht, min_eq_left hst, min_eq_right hs',
        max_eq_right (by push_cast; linarith)]
      simp
      ring
    · have hst : v - (j + 1 : ℕ) ≤ u - (i + 1 : ℕ) := by push_cast; linarith
      have hs' : u - (i + 1 : ℕ) ≤ 0 := by push_cast; linarith
      rw [share, max_eq_left hst, max_eq_left hs', min_eq_right hst, min_eq_right (hst.trans hs'),
        max_eq_right (by push_cast; linarith)]
      simp
      ring
  · rw [hfar (by omega)]
    split_ifs <;> first | rfl | omega

/-- An upper half is a lower one with rows and columns exchanged. -/
theorem share_upper {u v : ℝ} {i j : ℕ} (h : Half.upper.Holds (u - i) (v - j)) (k l : ℕ) :
    share (u - k) (v - l) =
      if k = i ∧ l = j then 1 - (v - j) else if k = i ∧ l = j + 1 then v - j - (u - i)
        else if k = i + 1 ∧ l = j + 1 then u - i else 0 := by
  have hswapped : Half.lower.Holds (v - j) (u - i) := h
  rw [← share_swap, share_lower hswapped]
  simp only [and_comm]

/-- The height of the surface, where only three samples have a part in it. -/
theorem heightOver_eq {ny : ℕ} {x y : ℝ} (a b c : ℕ × ℕ) (hab : a ≠ b) (hac : a ≠ c) (hbc : b ≠ c)
    (hgrid : ∀ k ∈ [a, b, c], k.1 < nx ∧ k.2 < ny)
    (hrest : ∀ k : ℕ × ℕ, k ∉ [a, b, c] → share (x / dx - k.1) (y / dy - k.2) = 0) :
    heightOver nx dx dy heights ny x y =
      heightAt nx heights a.1 a.2 * share (x / dx - a.1) (y / dy - a.2) +
        (heightAt nx heights b.1 b.2 * share (x / dx - b.1) (y / dy - b.2) +
          heightAt nx heights c.1 c.2 * share (x / dx - c.1) (y / dy - c.2)) := by
  have hcorners : ({a, b, c} : Finset (ℕ × ℕ)) ⊆ Finset.range nx ×ˢ Finset.range ny := by
    intro k hk
    have h := hgrid k (by simpa using hk)
    exact Finset.mem_product.mpr ⟨Finset.mem_range.mpr h.1, Finset.mem_range.mpr h.2⟩
  rw [heightOver, ← Finset.sum_subset hcorners, Finset.sum_insert (by simp [hab, hac]),
    Finset.sum_pair hbc]
  intro k _ hk
  rw [hrest k (by simpa using hk), mul_zero]

/-- The height over a point of a tile is that of the surface. -/
theorem blend_eq_heightOver {ny i j : ℕ} (hi : i + 1 < nx) (hj : j + 1 < ny) (half : Half) {x y : ℝ}
    (h : half.Holds (x / dx - i) (y / dy - j)) :
    half.blend (fun a b ↦ heightAt nx heights (i + a) (j + b)) (x / dx - i) (y / dy - j) =
      heightOver nx dx dy heights ny x y := by
  cases half with
  | lower =>
    rw [heightOver_eq (i, j) (i + 1, j) (i + 1, j + 1) (by simp) (by simp) (by simp)]
    · simp only [share_lower h, Half.blend]
      simp
      ring
    · simp
      omega
    · intro k hk
      simp only [List.mem_cons, List.not_mem_nil, or_false, Prod.ext_iff, not_or] at hk
      rw [share_lower h, if_neg hk.1, if_neg hk.2.1, if_neg hk.2.2]
  | upper =>
    rw [heightOver_eq (i, j) (i, j + 1) (i + 1, j + 1) (by simp) (by simp) (by simp)]
    · simp only [share_upper h, Half.blend]
      simp
      ring
    · simp
      omega
    · intro k hk
      simp only [List.mem_cons, List.not_mem_nil, or_false, Prod.ext_iff, not_or] at hk
      rw [share_upper h, if_neg hk.1, if_neg hk.2.1, if_neg hk.2.2]

/-- Over a sample no other sample has a part in the height. -/
theorem heightOver_sample (hdx : 0 < dx) (hdy : 0 < dy) {ny i j : ℕ} (hi : i < nx) (hj : j < ny) :
    heightOver nx dx dy heights ny (i * dx) (j * dy) = heightAt nx heights i j := by
  have hcorner : Half.lower.Holds ((i : ℝ) - i) ((j : ℝ) - j) := by simp [Half.Holds]
  rw [heightOver, Finset.sum_eq_single (i, j)]
  · rw [mul_div_cancel_right₀ _ hdx.ne', mul_div_cancel_right₀ _ hdy.ne', share_lower hcorner]
    simp
  · intro k _ hk
    rw [mul_div_cancel_right₀ _ hdx.ne', mul_div_cancel_right₀ _ hdy.ne', share_lower hcorner,
      if_neg (by simpa [Prod.ext_iff] using hk)]
    simp
  · intro h
    simp [hi, hj] at h

theorem continuous_heightOver (ny : ℕ) :
    Continuous fun q : ℝ × ℝ ↦ heightOver nx dx dy heights ny q.1 q.2 := by
  unfold heightOver share
  fun_prop

end Tiles

/-! ### Accepted height fields -/

section Accepted

variable {nx ny : ℕ} {dx dy : ℝ} {heights : List ℝ}

theorem getElem_vertices {k : ℕ} (hk : k < (vertices nx dx dy heights).size) :
    (vertices nx dx dy heights)[k] = sample nx dx dy heights k := by
  have hlength : k < heights.length := by simpa [vertices] using hk
  simp [vertices, sample, hlength]

theorem ofSamples_ok (hnx : 2 ≤ nx) (hny : 2 ≤ ny) (hsize : nx * ny ≤ indexRange) (hdx : 0 < dx)
    (hdy : 0 < dy) (hlength : heights.length = nx * ny) :
    ∃ mesh : Mesh ℝ, ofSamples nx ny dx dy heights = .ok { nx, ny, dx, dy, mesh } ∧
      mesh.vertices = vertices nx dx dy heights ∧ mesh.faces = gridFaces nx ny := by
  have hcount : nx * ny < countRange := lt_of_le_of_lt hsize (by decide)
  have hwide : nx < indexRange := by
    have htwice : nx * 2 ≤ nx * ny := Nat.mul_le_mul_left nx hny
    omega
  have hlast : (ny - 2) * nx + (nx - 2) < indexRange := by
    have h : index nx (nx - 2) (ny - 2) < nx * ny := index_lt (by omega) (by omega)
    exact h.trans_le hsize
  have hvertices : (vertices nx dx dy heights).size = nx * ny := by simp [vertices, hlength]
  have hfaces : gridFaces nx ny ≠ [] :=
    List.ne_nil_of_mem (mem_gridFaces.mpr ⟨0, 0, by omega, by omega, .lower, rfl⟩)
  let mesh : Mesh ℝ :=
    { vertices := vertices nx dx dy heights
      faces := gridFaces nx ny
      faces_ne_nil := hfaces
      vertices_finite := fun _ _ ↦ rfl
      faces_inRange := hvertices ▸ gridFaces_inRange }
  refine ⟨mesh, ?_, rfl, rfl⟩
  have hmesh : Mesh.ofFaces (vertices nx dx dy heights) (gridFaces nx ny) = .ok mesh :=
    mesh.ofFaces_ok
  rw [ofSamples, if_neg (by omega), if_neg hcount.not_ge, if_neg (not_not.mpr hlength)]
  refine (if_neg (not_not.mpr ⟨rfl, rfl, ?spacingX, ?spacingY⟩)).trans ?accepted
  case spacingX => rwa [Scalar.zero_real]
  case spacingY => rwa [Scalar.zero_real]
  case accepted =>
    rw [if_neg (by omega), hmesh]
    rfl

theorem triangles_eq {mesh : Mesh ℝ} (hvertices : mesh.vertices = vertices nx dx dy heights)
    (hfaces : mesh.faces = gridFaces nx ny) :
    mesh.triangles = (gridFaces nx ny).map (tile nx dx dy heights) := by
  have htile (f : Face) (hf : f.InRange mesh.vertices.size) :
      mesh.triangleOf f hf = tile nx dx dy heights f := by
    obtain ⟨vertices, faces, hnonempty, hfinite, hrange⟩ := mesh
    subst hvertices
    rw [Mesh.triangleOf_eq _ _ hf.1 hf.2.1 hf.2.2]
    simp only [getElem_vertices, tile]
  simp only [Mesh.triangles, htile]
  rw [hfaces]
  exact List.attach_map_val

/-- Samples over a grid of any size are accepted. The triangles tile the grid, face upwards, and
form one continuous surface through the samples. -/
theorem ofSamples_surface (hnx : 2 ≤ nx) (hny : 2 ≤ ny) (hsize : nx * ny ≤ indexRange)
    (hdx : 0 < dx) (hdy : 0 < dy) (hlength : heights.length = nx * ny) :
    ∃ field : HeightField ℝ, ofSamples nx ny dx dy heights = .ok field ∧
      field.mesh.triangles.length = 2 * (nx - 1) * (ny - 1) ∧
      field.mesh.vertices.size = nx * ny ∧
      (∀ f ∈ field.mesh.faces, f.InRange (nx * ny) ∧ f.InRange indexRange) ∧
      (∀ t ∈ field.mesh.triangles, 0 < ((t.b - t.a).cross (t.c - t.a)).z) ∧
      field.mesh.triangles.Pairwise
        (fun t u ↦ interior (footprint t) ∩ interior (footprint u) = ∅) ∧
      ⋃ t ∈ field.mesh.triangles, footprint t =
        Set.Icc 0 ((nx - 1 : ℕ) * dx) ×ˢ Set.Icc 0 ((ny - 1 : ℕ) * dy) ∧
      ∃ height : ℝ × ℝ → ℝ, Continuous height ∧
        (∀ t ∈ field.mesh.triangles, ∀ p ∈ Vec3.hull t.corners, p.z = height (p.x, p.y)) ∧
        ∀ i < nx, ∀ j < ny, heights[j * nx + i]? = some (height (i * dx, j * dy)) := by
  obtain ⟨mesh, hok, hvertices, hfaces⟩ := ofSamples_ok hnx hny hsize hdx hdy hlength
  have htriangles := triangles_eq hvertices hfaces
  have hcount : mesh.vertices.size = nx * ny := by
    rw [hvertices]
    simp [vertices, hlength]
  refine ⟨_, hok, ?_, hcount, ?_, ?_, ?_, ?_, fun q ↦ heightOver nx dx dy heights ny q.1 q.2,
    continuous_heightOver ny, ?_, ?_⟩ <;> simp only [htriangles, hfaces]
  · rw [List.length_map, length_gridFaces]
  · intro f hf
    obtain ⟨h, h', h''⟩ := gridFaces_inRange f hf
    exact ⟨⟨h, h', h''⟩, h.trans_le hsize, h'.trans_le hsize, h''.trans_le hsize⟩
  · intro t ht
    obtain ⟨f, hf, rfl⟩ := List.mem_map.mp ht
    obtain ⟨i, j, hi, -, half, rfl⟩ := mem_gridFaces.mp hf
    exact tile_ccw hdx hdy hi j half
  · refine List.pairwise_map.mpr ((gridFaces_nodup nx ny).pairwise_of_forall_ne ?_)
    intro f hf f' hf' hne
    obtain ⟨i, j, hi, -, half, rfl⟩ := mem_gridFaces.mp hf
    obtain ⟨i', j', hi', -, half', rfl⟩ := mem_gridFaces.mp hf'
    refine Set.eq_empty_of_forall_notMem fun q ⟨hq, hq'⟩ ↦ hne ?_
    obtain ⟨rfl, rfl, rfl⟩ := (holdsInside_of_mem_interior hdx hdy hi half hq).unique
      (holdsInside_of_mem_interior hdx hdy hi' half' hq')
    rfl
  · ext q
    simp only [Set.mem_iUnion, List.mem_map, exists_prop, Set.mem_prod, Set.mem_Icc]
    rw [← mem_grid_iff hdx hdy hnx hny]
    constructor
    · rintro ⟨_, ⟨f, hf, rfl⟩, hq⟩
      exact ⟨f, hf, hq⟩
    · rintro ⟨f, hf, hq⟩
      exact ⟨_, ⟨f, hf, rfl⟩, hq⟩
  · intro t ht p hp
    obtain ⟨f, hf, rfl⟩ := List.mem_map.mp ht
    obtain ⟨i, j, hi, hj, half, rfl⟩ := mem_gridFaces.mp hf
    obtain ⟨hholds, hz⟩ := (mem_tile_iff hdx hdy hi half).mp hp
    rw [hz, blend_eq_heightOver hi hj half hholds]
  · intro i hi j hj
    rw [heightOver_sample hdx hdy hi hj, heightAt, index]
    have hlt : j * nx + i < heights.length := hlength ▸ index_lt hi hj
    simp [hlt]

/-- Six samples in two rows, two apart along the rows. -/
theorem ofSamples_surface_two_rows :
    2 ≤ 3 ∧ 2 ≤ 2 ∧ 3 * 2 ≤ indexRange ∧ (0 : ℝ) < 2 ∧ (0 : ℝ) < 1 ∧
      ∃ field : HeightField ℝ, ofSamples 3 2 2 1 [0, 5, 1, 4, 2, 3] = .ok field ∧
        field.mesh.triangles.length = 4 ∧
        (⋃ t ∈ field.mesh.triangles, footprint t) = Set.Icc 0 4 ×ˢ Set.Icc 0 1 ∧
        ∃ height : ℝ × ℝ → ℝ, Continuous height ∧
          (∀ t ∈ field.mesh.triangles, ∀ p ∈ Vec3.hull t.corners, p.z = height (p.x, p.y)) ∧
          height (2, 1) = 2 := by
  have hsize : 3 * 2 ≤ indexRange := by decide
  obtain ⟨field, hok, hcount, -, -, -, -, hcover, height, hcontinuous, hheight, hsample⟩ :=
    ofSamples_surface (by decide : 2 ≤ 3) (by decide : 2 ≤ 2) hsize (two_pos : (0 : ℝ) < 2)
      (one_pos : (0 : ℝ) < 1) (rfl : ([0, 5, 1, 4, 2, 3] : List ℝ).length = 3 * 2)
  refine ⟨by decide, by decide, hsize, two_pos, one_pos, field, hok, hcount, ?_, height,
    hcontinuous, hheight, ?_⟩
  · rw [hcover]
    norm_num
  · have h := hsample 1 (by decide) 1 (by decide)
    norm_num at h
    exact h.symm

end Accepted

end HeightField

end Collision
