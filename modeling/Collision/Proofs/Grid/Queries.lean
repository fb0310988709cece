import Collision.Proofs.Box.Holds
import Collision.Proofs.Grid.Cells
import Mathlib.Algebra.Order.Floor.Semiring

/-!
# Queries of sphere grids

In exact arithmetic a grid answers as comparing the query with every sphere does, for the spheres
that were there at its last build.

* `GridIndex.exists_shared_cell` says that along every axis the cells of a sphere of the grid and
  those of a query that overlaps it have one in common, whatever the edge is, so the query comes
  upon the sphere (`GridIndex.mem_candidates_of_overlap`).
* `GridIndex.size_build_le` says that coarsening ends with as few cells as the budget says.
* `SphereGrid.run` is the grid after calls; `SphereGrid.collide_after_any_calls` says what queries
  find there.
-/

set_option autoImplicit false
set_option relaxedAutoImplicit false

namespace Collision

theorem Sphere.overlaps_iff (a b : Sphere ℝ) :
    a.overlaps b = true ↔ dist a.center b.center < a.radius + b.radius := by
  unfold overlaps
  rw [decide_eq_true_iff, Vec3.norm_eq_norm, dist_eq_norm]

namespace GridIndex

/-! ### Cells along one axis -/

/-- A whole number is its own whole part. -/
theorem floor_intCast_toNat (n : ℤ) : ⌊(n : ℝ)⌋₊ = n.toNat := by
  rw [← Int.floor_toNat, Int.floor_intCast]

theorem toNat_cellsAlong {length edge : ℝ} (hlength : 0 ≤ length) (hedge : 0 < edge) :
    Scalar.toNat (cellsAlong length edge) = ⌊length / edge⌋.toNat + 1 := by
  have hnonneg : 0 ≤ ⌊length / edge⌋ := Int.floor_nonneg.mpr (div_nonneg hlength hedge.le)
  have hcast : max ((⌊length / edge⌋ : ℝ) + 1) 1 = ((⌊length / edge⌋ + 1 : ℤ) : ℝ) := by
    rw [max_eq_left]
    · push_cast
      rfl
    · have : (0 : ℝ) ≤ ⌊length / edge⌋ := by exact_mod_cast hnonneg
      linarith
  unfold cellsAlong
  rw [Scalar.max_real, Scalar.floor_real, Scalar.one_real, Scalar.toNat_real, hcast,
    floor_intCast_toNat]
  omega

/-- The cells that a stretch touches, as whole numbers. -/
theorem rangeAlong?_eq (count : ℕ) (edge place radius : ℝ) :
    rangeAlong? count edge place radius =
      if ⌊(place + radius) / edge⌋ < 0 ∨ ((count - 1 : ℕ) : ℤ) < ⌊(place - radius) / edge⌋ then none
      else some (⌊(place - radius) / edge⌋.toNat,
        (min ⌊(place + radius) / edge⌋ ((count - 1 : ℕ) : ℤ)).toNat) := by
  unfold rangeAlong?
  simp only [Scalar.floor_real, Scalar.ofNat_real, Scalar.zero_real, Scalar.max_real,
    Scalar.min_real, Scalar.toNat_real]
  have hlast : ((⌊(place + radius) / edge⌋ : ℤ) : ℝ) < 0 ↔ ⌊(place + radius) / edge⌋ < 0 := by
    exact_mod_cast Iff.rfl
  have hfirst : ((count - 1 : ℕ) : ℝ) < (⌊(place - radius) / edge⌋ : ℤ) ↔
      ((count - 1 : ℕ) : ℤ) < ⌊(place - radius) / edge⌋ := by
    exact_mod_cast Iff.rfl
  have hmax : max ((⌊(place - radius) / edge⌋ : ℤ) : ℝ) 0 =
      ((max ⌊(place - radius) / edge⌋ 0 : ℤ) : ℝ) := by push_cast; rfl
  have hmin : min ((⌊(place + radius) / edge⌋ : ℤ) : ℝ) ((count - 1 : ℕ) : ℝ) =
      ((min ⌊(place + radius) / edge⌋ ((count - 1 : ℕ) : ℤ) : ℤ) : ℝ) := by push_cast; rfl
  rw [hmax, hmin, floor_intCast_toNat, floor_intCast_toNat]
  simp only [hlast, hfirst]
  congr 3
  omega

/-- A stretch inside the grid and one that overlaps it touch a common cell. -/
theorem exists_shared_cell (length : ℝ) {edge p r q s : ℝ} (hedge : 0 < edge) (hr : 0 ≤ r)
    (hs : 0 ≤ s) (hfirst : 0 ≤ p - r) (hlast : p + r ≤ length) (hmeet : |p - q| < r + s) :
    ∃ inside ∈ rangeAlong? (Scalar.toNat (cellsAlong length edge)) edge p r,
      ∃ other ∈ rangeAlong? (Scalar.toNat (cellsAlong length edge)) edge q s,
        ∃ cell < Scalar.toNat (cellsAlong length edge),
          (inside.1 ≤ cell ∧ cell ≤ inside.2) ∧ (other.1 ≤ cell ∧ cell ≤ other.2) := by
  have hfloor {a b : ℝ} (h : a ≤ b) : ⌊a / edge⌋ ≤ ⌊b / edge⌋ :=
    Int.floor_mono (div_le_div_of_nonneg_right h hedge.le)
  obtain ⟨hleft, hright⟩ := abs_lt.mp hmeet
  rw [toNat_cellsAlong (by linarith) hedge, rangeAlong?_eq, rangeAlong?_eq]
  have hstart : 0 ≤ ⌊(p - r) / edge⌋ := Int.floor_nonneg.mpr (div_nonneg hfirst hedge.le)
  have hinside : ⌊(p - r) / edge⌋ ≤ ⌊(p + r) / edge⌋ := hfloor (by linarith)
  have hend : ⌊(p + r) / edge⌋ ≤ ⌊length / edge⌋ := hfloor hlast
  have hother : ⌊(q - s) / edge⌋ ≤ ⌊(q + s) / edge⌋ := hfloor (by linarith)
  have hbefore : ⌊(q - s) / edge⌋ ≤ ⌊(p + r) / edge⌋ := hfloor (by linarith)
  have hbehind : ⌊(p - r) / edge⌋ ≤ ⌊(q + s) / edge⌋ := hfloor (by linarith)
  generalize ⌊(p - r) / edge⌋ = a at *
  generalize ⌊(p + r) / edge⌋ = b at *
  generalize ⌊(q - s) / edge⌋ = c at *
  generalize ⌊(q + s) / edge⌋ = d at *
  generalize ⌊length / edge⌋ = n at *
  have hcount : ((n.toNat + 1 - 1 : ℕ) : ℤ) = n := by omega
  rw [if_neg (by omega), if_neg (by omega)]
  exact ⟨_, rfl, _, rfl, (max a c).toNat, by omega, ⟨by omega, by omega⟩, by omega, by omega⟩

/-! ### The edge of the cells -/

theorem startEdge_pos (spheres : List (Sphere ℝ)) (requested : ℝ) :
    0 < startEdge spheres requested := by
  unfold startEdge
  extract_lets edge
  clear_value edge
  split_ifs with hpos
  · simpa using hpos.2
  · rw [Scalar.one_real]
    exact one_pos

variable {extent : Vec3 ℝ} {limit edge : ℝ}

/-- A round of coarsening makes the edge longer by a hundredth at least. -/
theorem coarsen_succ_of_lt (hcount : limit < cellCount extent edge) (rounds : ℕ) :
    ∃ factor : ℝ, 1 + 1 / 100 ≤ factor ∧
      coarsen extent limit (rounds + 1) edge = coarsen extent limit rounds (edge * factor) := by
  refine ⟨_, ?_, by rw [coarsen, if_pos hcount]⟩
  rw [Scalar.max_real, Scalar.decimal_real]
  refine le_trans ?_ (le_max_right _ _)
  norm_num

theorem coarsen_succ_of_le (hcount : ¬limit < cellCount extent edge) (rounds : ℕ) :
    coarsen extent limit (rounds + 1) edge = edge := by
  rw [coarsen, if_neg hcount]

theorem coarsen_pos (hedge : 0 < edge) (rounds : ℕ) : 0 < coarsen extent limit rounds edge := by
  induction rounds generalizing edge with
  | zero => exact hedge
  | succ rounds ih =>
    by_cases hcount : limit < cellCount extent edge
    · obtain ⟨factor, hfactor, hnext⟩ := coarsen_succ_of_lt hcount rounds
      rw [hnext]
      exact ih (mul_pos hedge (by linarith))
    · rw [coarsen_succ_of_le hcount]
      exact hedge

theorem edgeFor_pos (spheres : List (Sphere ℝ)) (extent : Vec3 ℝ) (requested : ℝ) :
    0 < edgeFor spheres extent requested :=
  coarsen_pos (startEdge_pos spheres requested) _

/-- Cells that are longer than the box leave one cell. -/
theorem cellCount_of_long (hedge : 0 < edge) (hx : extent.x < edge) (hy : extent.y < edge)
    (hz : extent.z < edge) : cellCount extent edge = 1 := by
  have halong {length : ℝ} (hlength : length < edge) : cellsAlong length edge = 1 := by
    have hfloor : ⌊length / edge⌋ ≤ 0 :=
      Int.floor_le_iff.mpr (by simpa using (div_lt_one hedge).mpr hlength)
    have hcast : (⌊length / edge⌋ : ℝ) ≤ 0 := by exact_mod_cast hfloor
    unfold cellsAlong
    rw [Scalar.max_real, Scalar.floor_real, Scalar.one_real]
    exact max_eq_right (by linarith)
  unfold cellCount
  rw [halong hx, halong hy, halong hz, one_mul, one_mul]

/-- Enough rounds bring the number of cells within the limit. -/
theorem cellCount_coarsen_le (hlimit : 1 ≤ limit) (hedge : 0 < edge) {rounds : ℕ} (longest : ℝ)
    (hx : extent.x ≤ longest) (hy : extent.y ≤ longest) (hz : extent.z ≤ longest)
    (hlong : longest < edge * (1 + 1 / 100) ^ rounds) :
    cellCount extent (coarsen extent limit rounds edge) ≤ limit := by
  induction rounds generalizing edge with
  | zero =>
    rw [pow_zero, mul_one] at hlong
    rw [coarsen, cellCount_of_long hedge (by linarith) (by linarith) (by linarith)]
    exact hlimit
  | succ rounds ih =>
    by_cases hcount : limit < cellCount extent edge
    · obtain ⟨factor, hfactor, hnext⟩ := coarsen_succ_of_lt hcount rounds
      rw [hnext]
      refine ih (mul_pos hedge (by linarith)) (lt_of_lt_of_le hlong ?_)
      calc edge * (1 + 1 / 100) ^ (rounds + 1)
          = edge * (1 + 1 / 100) * (1 + 1 / 100) ^ rounds := by rw [pow_succ']; ring
        _ ≤ edge * factor * (1 + 1 / 100) ^ rounds := by gcongr
    · rw [coarsen_succ_of_le hcount]
      exact not_lt.mp hcount

/-- The cells of a grid are as few as its budget says. -/
theorem cellCount_edgeFor_le (spheres : List (Sphere ℝ)) (extent : Vec3 ℝ) (requested : ℝ) :
    cellCount extent (edgeFor spheres extent requested) ≤ budget spheres.length := by
  have hedge := startEdge_pos spheres requested
  unfold edgeFor coarsenRounds
  dsimp only
  generalize startEdge spheres requested = edge at *
  rw [Scalar.ofNat_real, Scalar.max_real, Scalar.max_real, Scalar.toNat_real,
    Scalar.numeral_real]
  set longest := max (max extent.x extent.y) extent.z with hlongest
  have hlimit : (1 : ℝ) ≤ budget spheres.length := by
    have hbudget : 1 ≤ budget spheres.length := le_trans (by norm_num) (Nat.le_max_right _ 4096)
    exact_mod_cast hbudget
  refine cellCount_coarsen_le hlimit hedge longest
    ((le_max_left _ _).trans (le_max_left _ _)) ((le_max_right _ _).trans (le_max_left _ _))
    (le_max_right _ _) ?_
  -- Growing by a hundredth so many times adds more than the longest side of the box.
  have hrounds : 100 * (longest / edge) < ⌊100 * (longest / edge)⌋₊ + 1 := Nat.lt_floor_add_one _
  have hbernoulli := one_add_mul_le_pow (a := (1 / 100 : ℝ)) (by norm_num)
    (⌊100 * (longest / edge)⌋₊ + 1)
  push_cast at hbernoulli
  have hratio : longest / edge < (1 + 1 / 100 : ℝ) ^ (⌊100 * (longest / edge)⌋₊ + 1) := by linarith
  exact (div_lt_iff₀' hedge).mp hratio

theorem natCast_toNat_cellsAlong (length edge : ℝ) :
    (Scalar.toNat (cellsAlong length edge) : ℝ) = cellsAlong length edge := by
  have hcast : cellsAlong length edge = ((max (⌊length / edge⌋ + 1) 1 : ℤ) : ℝ) := by
    unfold cellsAlong
    rw [Scalar.max_real, Scalar.floor_real, Scalar.one_real]
    push_cast
    rfl
  rw [hcast, Scalar.toNat_real, floor_intCast_toNat]
  have hpos : (0 : ℤ) ≤ max (⌊length / edge⌋ + 1) 1 := le_trans (by norm_num) (le_max_right _ _)
  exact_mod_cast Int.toNat_of_nonneg hpos

theorem natCast_volume_dimsFor (extent : Vec3 ℝ) (edge : ℝ) :
    (volume (dimsFor extent edge) : ℝ) = cellCount extent edge := by
  unfold volume dimsFor cellCount
  rw [Nat.cast_mul, Nat.cast_mul, natCast_toNat_cellsAlong extent.x edge,
    natCast_toNat_cellsAlong extent.y edge, natCast_toNat_cellsAlong extent.z edge]

/-- A grid has as few cells as its budget says, whatever edge was requested. -/
theorem size_build_le (spheres : List (Sphere ℝ)) (requested : ℝ) :
    (build spheres requested).cells.size ≤ budget spheres.length := by
  have hcount := cellCount_edgeFor_le spheres (largestCorner spheres - leastCorner spheres)
    requested
  rw [← natCast_volume_dimsFor, Nat.cast_le] at hcount
  exact (size_fill spheres).trans_le hcount

/-! ### Spheres that a query comes upon -/

theorem get_sub_replicate (v : Vec3 ℝ) (a : ℝ) (i : Fin 3) :
    (v - Vec3.replicate a).get i = v.get i - a := by
  fin_cases i <;> rfl

theorem get_add_replicate (v : Vec3 ℝ) (a : ℝ) (i : Fin 3) :
    (v + Vec3.replicate a).get i = v.get i + a := by
  fin_cases i <;> rfl

variable {spheres : List (Sphere ℝ)} {s query : Sphere ℝ}

theorem leastCorner_get_le (hs : s ∈ spheres) (i : Fin 3) :
    (leastCorner spheres).get i ≤ s.center.get i - s.radius := by
  rw [← get_sub_replicate]
  match spheres, hs with
  | first :: rest, hs =>
    obtain ⟨hfirst, hrest⟩ := OrientedBox.foldl_lesser_get_le
      (rest.map fun s ↦ s.center - Vec3.replicate s.radius)
      (first.center - Vec3.replicate first.radius) i
    rcases List.mem_cons.mp hs with rfl | hs
    · exact hfirst
    · exact hrest _ (List.mem_map.mpr ⟨s, hs, rfl⟩)

theorem le_largestCorner_get (hs : s ∈ spheres) (i : Fin 3) :
    s.center.get i + s.radius ≤ (largestCorner spheres).get i := by
  rw [← get_add_replicate]
  match spheres, hs with
  | first :: rest, hs =>
    obtain ⟨hfirst, hrest⟩ := OrientedBox.le_foldl_greater_get
      (rest.map fun s ↦ s.center + Vec3.replicate s.radius)
      (first.center + Vec3.replicate first.radius) i
    rcases List.mem_cons.mp hs with rfl | hs
    · exact hfirst
    · exact hrest _ (List.mem_map.mpr ⟨s, hs, rfl⟩)

/-- Along an axis, a sphere of the grid and a query that overlaps it touch a common cell. -/
theorem exists_shared_cell_of_overlap (hs : s ∈ spheres) (hradius : 0 ≤ s.radius)
    (hquery : 0 ≤ query.radius)
    (hoverlap : dist s.center query.center < s.radius + query.radius) {edge : ℝ} (hedge : 0 < edge)
    (i : Fin 3) :
    let origin := leastCorner spheres
    let count := Scalar.toNat (cellsAlong ((largestCorner spheres - origin).get i) edge)
    ∃ inside ∈ rangeAlong? count edge ((s.center - origin).get i) s.radius,
      ∃ other ∈ rangeAlong? count edge ((query.center - origin).get i) query.radius,
        ∃ cell < count,
          (inside.1 ≤ cell ∧ cell ≤ inside.2) ∧ (other.1 ≤ cell ∧ cell ≤ other.2) := by
  intro origin count
  have hlo := leastCorner_get_le hs i
  have hhi := le_largestCorner_get hs i
  have hfar : |s.center.get i - query.center.get i| ≤ dist s.center query.center := by
    rw [dist_eq_norm, ← Vec3.get_sub, ← Vec3.dot_axis]
    exact (Vec3.axis_isDirection i).abs_dot_le _
  refine exists_shared_cell _ hedge hradius hquery ?_ ?_ ?_
  · rw [Vec3.get_sub]
    linarith
  · rw [Vec3.get_sub, Vec3.get_sub]
    linarith
  · rw [Vec3.get_sub, Vec3.get_sub, sub_sub_sub_cancel_right]
    exact lt_of_le_of_lt hfar hoverlap

/-- A query comes upon every sphere of the grid that it overlaps. -/
theorem mem_candidates_of_overlap (hradii : ∀ s ∈ spheres, 0 ≤ s.radius) (requested : ℝ)
    (hquery : 0 ≤ query.radius) {number : ℕ} (hs : spheres[number]? = some s)
    (hoverlap : dist s.center query.center < s.radius + query.radius) :
    number ∈ (build spheres requested).candidates query := by
  have hmem : s ∈ spheres := List.mem_of_getElem? hs
  have haxis := exists_shared_cell_of_overlap hmem (hradii s hmem) hquery hoverlap
    (edgeFor_pos spheres (largestCorner spheres - leastCorner spheres) requested)
  obtain ⟨sx, hsx, qx, hqx, x, hx, hinx, honx⟩ := haxis 0
  obtain ⟨sy, hsy, qy, hqy, y, hy, hiny, hony⟩ := haxis 1
  obtain ⟨sz, hsz, qz, hqz, z, hz, hinz, honz⟩ := haxis 2
  let place : CellPlace := ⟨x, y, z⟩
  have hlisted : number ∈ listed (build spheres requested).cells
      ((build spheres requested).dims.number place) :=
    mem_fill.mpr ⟨s, hs, ⟨_, mem_range?_of_axes hsx hsy hsz,
      mem_cellNumbers.mpr ⟨place, ⟨hinx, hiny, hinz⟩, rfl⟩⟩,
      CellPlace.number_lt_volume hx hy hz⟩
  exact mem_candidates.mpr ⟨_, mem_range?_of_axes hqx hqy hqz, _,
    mem_cellNumbers.mpr ⟨place, ⟨honx, hony, honz⟩, rfl⟩, hlisted⟩

end GridIndex

namespace SphereGrid

/-! ### Queries -/

/-- A built grid finds the spheres that were there when it was built, also after more were added. -/
theorem collide_of_built {g : SphereGrid ℝ} {built later : List (Sphere ℝ)} {requested : ℝ}
    (hspheres : g.spheres.toList = built ++ later)
    (hindex : g.index? = some (.build built requested)) (hradii : ∀ s ∈ built, 0 ≤ s.radius)
    {query : Sphere ℝ} (hquery : 0 ≤ query.radius) : g.collide query = true ↔
      ∃ s ∈ built, dist s.center query.center < s.radius + query.radius := by
  have hget {number : ℕ} {s : Sphere ℝ} (hs : built[number]? = some s) :
      g.spheres[number]? = some s := by
    rw [← Array.getElem?_toList, hspheres, List.getElem?_append_left
      (List.getElem?_eq_some_iff.mp hs).1]
    exact hs
  unfold collide
  rw [hindex, List.any_eq_true]
  constructor
  · rintro ⟨number, hnumber, hoverlap⟩
    obtain ⟨block, -, cell, -, hlisted⟩ := GridIndex.mem_candidates.mp hnumber
    obtain ⟨s, hs, -⟩ := GridIndex.mem_fill.mp hlisted
    rw [hget hs] at hoverlap
    exact ⟨s, List.mem_of_getElem? hs, (s.overlaps_iff query).mp hoverlap⟩
  · rintro ⟨s, hmem, hoverlap⟩
    obtain ⟨number, hs⟩ := List.mem_iff_getElem?.mp hmem
    refine ⟨number, GridIndex.mem_candidates_of_overlap hradii requested hquery hs hoverlap, ?_⟩
    rw [hget hs]
    exact (s.overlaps_iff query).mpr hoverlap

/-! ### Calls -/

variable {α : Type}

/-- A call on a grid. -/
inductive Call (α : Type) where
  | add (s : Sphere α)
  | build (edge : α)
  | query (s : Sphere α)

/-- The spheres that calls add. -/
def added (calls : List (Call α)) : List (Sphere α) :=
  calls.filterMap fun
    | .add s => some s
    | .build _ => none
    | .query _ => none

theorem mem_added {calls : List (Call α)} {s : Sphere α} : s ∈ added calls ↔ .add s ∈ calls := by
  unfold added
  rw [List.mem_filterMap]
  constructor
  · rintro ⟨call, hcall, hs⟩
    cases call with
    | add t => rwa [← Option.some_inj.mp hs]
    | build edge => cases hs
    | query t => cases hs
  · exact fun h ↦ ⟨_, h, rfl⟩

theorem added_append (calls more : List (Call α)) :
    added (calls ++ more) = added calls ++ added more :=
  List.filterMap_append

variable [Scalar α]

/-- The grid after a call; a query leaves it as it is. -/
def step (g : SphereGrid α) : Call α → SphereGrid α
  | .add s => g.add s
  | .build edge => g.build edge
  | .query _ => g

/-- The grid after calls, from no spheres. -/
def run (calls : List (Call α)) : SphereGrid α := calls.foldl step empty

theorem run_append (calls more : List (Call α)) :
    run (calls ++ more) = more.foldl step (run calls) :=
  List.foldl_append

theorem spheres_foldl_step (g : SphereGrid α) (calls : List (Call α)) :
    (calls.foldl step g).spheres.toList = g.spheres.toList ++ added calls := by
  induction calls generalizing g with
  | nil => exact (List.append_nil _).symm
  | cons call rest ih =>
    rw [List.foldl_cons, ih]
    cases call with
    | add s =>
      show (g.spheres.push s).toList ++ _ = _
      rw [Array.toList_push, List.append_assoc]
      rfl
    | build edge => rfl
    | query s => rfl

/-- A run has the spheres that its calls added, in order. -/
theorem spheres_run (calls : List (Call α)) : (run calls).spheres.toList = added calls :=
  spheres_foldl_step empty calls

/-- Only a build changes the index. -/
theorem index?_foldl_step {g : SphereGrid α} {calls : List (Call α)}
    (hbuilds : ∀ edge, .build edge ∉ calls) : (calls.foldl step g).index? = g.index? := by
  induction calls generalizing g with
  | nil => rfl
  | cons call rest ih =>
    rw [List.foldl_cons, ih fun edge hmem ↦ hbuilds edge (List.mem_cons_of_mem call hmem)]
    cases call with
    | add s => rfl
    | build edge => exact absurd List.mem_cons_self (hbuilds edge)
    | query s => rfl

theorem index?_run_of_no_build {calls : List (Call α)} (hbuilds : ∀ edge, .build edge ∉ calls) :
    (run calls).index? = none :=
  index?_foldl_step hbuilds

/-- The index is that of the last build, over the spheres that were added before it. -/
theorem index?_run {before since : List (Call α)} {edge : α}
    (hsince : ∀ edge, .build edge ∉ since) :
    (run (before ++ .build edge :: since)).index? =
      if added before = [] then none else some (.build (added before) edge) := by
  rw [run_append, List.foldl_cons, index?_foldl_step hsince]
  show (if (run before).spheres.isEmpty then none else _) = _
  rw [← Array.isEmpty_toList, spheres_run]
  simp only [List.isEmpty_iff]

omit [Scalar α] in
/-- Calls have no build, or a last one. -/
theorem exists_last_build (calls : List (Call α)) : (∀ edge, .build edge ∉ calls) ∨
    ∃ before edge since, calls = before ++ .build edge :: since ∧
      ∀ edge, .build edge ∉ since := by
  induction calls using List.reverseRecOn with
  | nil => exact .inl nofun
  | append_singleton calls call ih =>
    by_cases hbuild : ∃ edge, call = .build edge
    · obtain ⟨edge, rfl⟩ := hbuild
      exact .inr ⟨calls, edge, [], rfl, nofun⟩
    · have hlast : ∀ edge, .build edge ∉ [call] := fun edge hmem ↦
        hbuild ⟨edge, (List.mem_singleton.mp hmem).symm⟩
      rcases ih with hnone | ⟨before, edge, since, rfl, hsince⟩
      · exact .inl fun edge hmem ↦ (List.mem_append.mp hmem).elim (hnone edge) (hlast edge)
      · refine .inr ⟨before, edge, since ++ [call], by simp, fun edge hmem ↦ ?_⟩
        exact (List.mem_append.mp hmem).elim (hsince edge) (hlast edge)

/-- What a query finds after the last build of a run. -/
theorem collide_run_of_last_build {before since : List (Call ℝ)} {edge : ℝ}
    (hsince : ∀ edge, .build edge ∉ since) (hradii : ∀ s ∈ added before, 0 ≤ s.radius)
    {query : Sphere ℝ} (hquery : 0 ≤ query.radius) :
    (run (before ++ .build edge :: since)).collide query = true ↔
      ∃ s ∈ added before, dist s.center query.center < s.radius + query.radius := by
  have hindex : (run (before ++ .build edge :: since)).index? = _ := index?_run hsince
  have hspheres := spheres_run (before ++ .build edge :: since)
  rw [added_append] at hspheres
  by_cases hempty : added before = []
  · rw [if_pos hempty] at hindex
    unfold collide
    rw [hindex, hempty]
    simp
  · rw [if_neg hempty] at hindex
    exact collide_of_built hspheres hindex hradii hquery

/-- Queries in exact arithmetic after any calls that add spheres of nonnegative radius, with any
requested edges.

A query of nonnegative radius finds an overlap iff it overlaps a sphere that was added before the
last build, so it finds none before the first build after an added sphere. Where nothing was added
since the last build it answers as comparing the query with every sphere does. -/
theorem collide_after_any_calls (calls : List (Call ℝ))
    (hradii : ∀ s, .add s ∈ calls → 0 ≤ s.radius) (query : Sphere ℝ) (hquery : 0 ≤ query.radius) :
    ((run calls).collide query = true ↔
      ∃ before edge since, calls = before ++ .build edge :: since ∧
        (∀ edge, .build edge ∉ since) ∧
        ∃ s, .add s ∈ before ∧ dist s.center query.center < s.radius + query.radius) ∧
      ((∀ before edge since, calls = before ++ .build edge :: since → ∀ s, .add s ∉ before) →
        (run calls).collide query = false) ∧
      ∀ before edge since, calls = before ++ .build edge :: since →
        (∀ edge, .build edge ∉ since) → (∀ s, .add s ∉ since) →
        (run calls).collide query = (run calls).collideAll query := by
  have hsplit {before since : List (Call ℝ)} {edge : ℝ}
      (hcalls : calls = before ++ .build edge :: since) (hsince : ∀ edge, .build edge ∉ since) :
      (run calls).collide query = true ↔
        ∃ s ∈ added before, dist s.center query.center < s.radius + query.radius := by
    rw [hcalls]
    refine collide_run_of_last_build hsince (fun s hs ↦ hradii s ?_) hquery
    rw [hcalls]
    exact List.mem_append_left _ (mem_added.mp hs)
  have hfound : (run calls).collide query = true ↔
      ∃ before edge since, calls = before ++ .build edge :: since ∧
        (∀ edge, .build edge ∉ since) ∧
        ∃ s, .add s ∈ before ∧ dist s.center query.center < s.radius + query.radius := by
    constructor
    · intro hcollide
      rcases exists_last_build calls with hnone | ⟨before, edge, since, hcalls, hsince⟩
      · unfold collide at hcollide
        rw [index?_run_of_no_build hnone] at hcollide
        cases hcollide
      · obtain ⟨s, hs, hoverlap⟩ := (hsplit hcalls hsince).mp hcollide
        exact ⟨before, edge, since, hcalls, hsince, s, mem_added.mp hs, hoverlap⟩
    · rintro ⟨before, edge, since, hcalls, hsince, s, hs, hoverlap⟩
      exact (hsplit hcalls hsince).mpr ⟨s, mem_added.mpr hs, hoverlap⟩
  refine ⟨hfound, fun hnever ↦ ?_, fun before edge since hcalls hsince hlater ↦ ?_⟩
  · rw [← Bool.not_eq_true, hfound]
    rintro ⟨before, edge, since, hcalls, -, s, hs, -⟩
    exact hnever before edge since hcalls s hs
  · have hadded : added calls = added before := by
      have hnothing : added since = [] :=
        List.eq_nil_iff_forall_not_mem.mpr fun s hs ↦ hlater s (mem_added.mp hs)
      rw [hcalls, added_append]
      show added before ++ added since = added before
      rw [hnothing, List.append_nil]
    rw [Bool.eq_iff_iff, hsplit hcalls hsince, ← hadded, ← spheres_run, collideAll,
      ← Array.any_toList, List.any_eq_true]
    exact exists_congr fun s ↦ and_congr_right fun _ ↦ (s.overlaps_iff query).symm

/-- A query at the border between two cells finds the spheres on both sides. -/
theorem collide_after_two_balls :
    let calls : List (Call ℝ) := [.add ⟨⟨0, 0, 0⟩, 1⟩, .add ⟨⟨4, 0, 0⟩, 1⟩, .build 2]
    let query : Sphere ℝ := ⟨⟨2, 0, 0⟩, 3 / 2⟩
    (∀ s, .add s ∈ calls → 0 ≤ s.radius) ∧ 0 ≤ query.radius ∧
      (run calls).collide query = true ∧ (run calls).collideAll query = true := by
  intro calls query
  have hradii : ∀ s, .add s ∈ calls → 0 ≤ s.radius := by
    intro s hs
    rcases List.mem_cons.mp hs with h | hs
    · cases h
      exact zero_le_one
    rcases List.mem_cons.mp hs with h | hs
    · cases h
      exact zero_le_one
    · cases List.mem_singleton.mp hs
  have hquery : 0 ≤ query.radius := by
    show (0 : ℝ) ≤ 3 / 2
    norm_num
  have hdist : dist (⟨4, 0, 0⟩ : Vec3 ℝ) ⟨2, 0, 0⟩ < 1 + 3 / 2 := by
    rw [dist_eq_norm, Vec3.norm_eq_sqrt_dot, Vec3.dot_eq]
    simp only [Vec3.sub_x, Vec3.sub_y, Vec3.sub_z]
    rw [Real.sqrt_lt' (by norm_num)]
    norm_num
  obtain ⟨hfound, -, hall⟩ := collide_after_any_calls calls hradii query hquery
  have hcollide : (run calls).collide query = true :=
    hfound.mpr ⟨calls.take 2, 2, [], rfl, nofun, ⟨⟨4, 0, 0⟩, 1⟩,
      List.mem_cons_of_mem _ List.mem_cons_self, hdist⟩
  exact ⟨hradii, hquery, hcollide, (hall (calls.take 2) 2 [] rfl nofun nofun) ▸ hcollide⟩

end SphereGrid

end Collision
