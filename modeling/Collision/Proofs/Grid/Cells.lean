import Collision.SphereGrid
import Mathlib.Data.List.Basic
import Mathlib.Tactic.Common

/-!
# Cells and what is listed with them

The numbers of the cells of a block, and what the cells of a grid list after a build, in any
arithmetic.

* `GridIndex.mem_cellNumbers` says which numbers a block of cells has, and
  `CellPlace.number_lt_volume` that cells of the grid have numbers below its volume.
* `GridIndex.mem_fill` says that a cell lists the spheres whose blocks have its number.
* `GridIndex.mem_candidates` says that a query comes upon the spheres with which it shares a cell.
-/

set_option autoImplicit false
set_option relaxedAutoImplicit false

namespace Collision

/-! ### Numbers of cells -/

/-- The number of a cell: x running fastest and z slowest. -/
def CellPlace.number (dims place : CellPlace) : ℕ :=
  (place.z * dims.y + place.y) * dims.x + place.x

/-- A cell is one of a block. -/
structure CellRange.Has (range : CellRange) (place : CellPlace) : Prop where
  x : range.first.x ≤ place.x ∧ place.x ≤ range.last.x
  y : range.first.y ≤ place.y ∧ place.y ≤ range.last.y
  z : range.first.z ≤ place.z ∧ place.z ≤ range.last.z

/-- A mixed-radix digit in front of a smaller number. -/
theorem mul_add_lt_mul {high low count width : ℕ} (hhigh : high < count) (hlow : low < width) :
    high * width + low < count * width :=
  calc high * width + low < high * width + width := Nat.add_lt_add_left hlow _
    _ = (high + 1) * width := (Nat.succ_mul high width).symm
    _ ≤ count * width := Nat.mul_le_mul_right width hhigh

theorem CellPlace.number_lt_volume {dims place : CellPlace} (hx : place.x < dims.x)
    (hy : place.y < dims.y) (hz : place.z < dims.z) :
    dims.number place < GridIndex.volume dims :=
  calc (place.z * dims.y + place.y) * dims.x + place.x
      < dims.z * dims.y * dims.x := mul_add_lt_mul (mul_add_lt_mul hz hy) hx
    _ = dims.x * dims.y * dims.z := by
      rw [Nat.mul_comm _ dims.x, Nat.mul_comm dims.z, Nat.mul_assoc]

namespace GridIndex

theorem mem_interval {first last i : ℕ} : i ∈ interval first last ↔ first ≤ i ∧ i ≤ last := by
  unfold interval
  rw [List.mem_map]
  constructor
  · rintro ⟨offset, hoffset, rfl⟩
    have hlt := List.mem_range.mp hoffset
    omega
  · rintro ⟨hfirst, hlast⟩
    exact ⟨i - first, List.mem_range.mpr (by omega), by omega⟩

theorem mem_cellNumbers {dims : CellPlace} {range : CellRange} {number : ℕ} :
    number ∈ cellNumbers dims range ↔ ∃ place, range.Has place ∧ number = dims.number place := by
  simp only [cellNumbers, List.mem_flatMap, List.mem_map, mem_interval]
  constructor
  · rintro ⟨k, hk, j, hj, i, hi, rfl⟩
    exact ⟨⟨i, j, k⟩, ⟨hi, hj, hk⟩, rfl⟩
  · rintro ⟨place, ⟨hx, hy, hz⟩, rfl⟩
    exact ⟨place.z, hz, place.y, hy, place.x, hx, rfl⟩

/-! ### Listing spheres with cells -/

/-- What a cell lists; nothing where there is no cell. -/
def listed (cells : Array (List ℕ)) (cell : ℕ) : List ℕ := cells[cell]?.getD []

theorem listed_replicate (count cell : ℕ) : listed (Array.replicate count []) cell = [] := by
  unfold listed
  rw [Array.getElem?_replicate]
  split_ifs <;> rfl

theorem size_foldl_modify (number : ℕ) (places : List ℕ) (cells : Array (List ℕ)) :
    (places.foldl (fun cells c ↦ cells.modify c (number :: ·)) cells).size = cells.size := by
  induction places generalizing cells with
  | nil => rfl
  | cons c rest ih => exact (ih _).trans Array.size_modify

theorem mem_listed_modify {cells : Array (List ℕ)} {number other place cell : ℕ} :
    other ∈ listed (cells.modify place (number :: ·)) cell ↔
      other ∈ listed cells cell ∨ other = number ∧ cell = place ∧ cell < cells.size := by
  unfold listed
  rw [Array.getElem?_modify]
  by_cases hplace : place = cell
  · subst hplace
    by_cases hcell : place < cells.size
    · simp [hcell, or_comm]
    · simp [hcell]
  · simp [hplace, Ne.symm hplace]

theorem mem_listed_foldl_modify {cells : Array (List ℕ)} {number other cell : ℕ}
    {places : List ℕ} :
    other ∈ listed (places.foldl (fun cells c ↦ cells.modify c (number :: ·)) cells) cell ↔
      other ∈ listed cells cell ∨ other = number ∧ cell ∈ places ∧ cell < cells.size := by
  induction places generalizing cells with
  | nil => simp
  | cons c rest ih =>
    rw [List.foldl_cons, ih, mem_listed_modify, Array.size_modify, List.mem_cons]
    tauto

theorem size_register (dims : CellPlace) (cells : Array (List ℕ)) (number : ℕ)
    (range : Option CellRange) : (register dims cells number range).size = cells.size := by
  cases range with
  | none => rfl
  | some range => exact size_foldl_modify number _ cells

theorem mem_listed_register {dims : CellPlace} {cells : Array (List ℕ)} {number other cell : ℕ}
    {range : Option CellRange} : other ∈ listed (register dims cells number range) cell ↔
      other ∈ listed cells cell ∨ other = number ∧
        (∃ block ∈ range, cell ∈ cellNumbers dims block) ∧ cell < cells.size := by
  cases range with
  | none => simp [register]
  | some block => simp [register, mem_listed_foldl_modify]

variable {α : Type} [Scalar α] {origin : Vec3 α} {edge : α} {dims : CellPlace}

theorem mem_listed_foldl_register {cells : Array (List ℕ)} {other cell : ℕ}
    {numbered : List (Sphere α × ℕ)} :
    other ∈ listed (numbered.foldl
        (fun cells s ↦ register dims cells s.2 (range? origin edge dims s.1)) cells) cell ↔
      other ∈ listed cells cell ∨ ∃ s, (s, other) ∈ numbered ∧
        (∃ block ∈ range? origin edge dims s, cell ∈ cellNumbers dims block) ∧
          cell < cells.size := by
  induction numbered generalizing cells with
  | nil => simp
  | cons s rest ih =>
    rw [List.foldl_cons, ih, mem_listed_register, size_register]
    constructor
    · rintro ((hold | ⟨rfl, hnew⟩) | ⟨t, ht, hlater⟩)
      · exact .inl hold
      · exact .inr ⟨s.1, List.mem_cons_self, hnew⟩
      · exact .inr ⟨t, List.mem_cons_of_mem s ht, hlater⟩
    · rintro (hold | ⟨t, ht, hcell⟩)
      · exact .inl (.inl hold)
      · rcases List.mem_cons.mp ht with rfl | ht
        · exact .inl (.inr ⟨rfl, hcell⟩)
        · exact .inr ⟨t, ht, hcell⟩

/-- A cell of the grid lists the spheres whose blocks have it. -/
theorem mem_fill {spheres : List (Sphere α)} {number cell : ℕ} :
    number ∈ listed (fill origin edge dims spheres) cell ↔ ∃ s, spheres[number]? = some s ∧
      (∃ block ∈ range? origin edge dims s, cell ∈ cellNumbers dims block) ∧
        cell < volume dims := by
  unfold fill
  rw [mem_listed_foldl_register, listed_replicate, Array.size_replicate]
  simp [List.mem_zipIdx_iff_getElem?]

theorem size_fill (spheres : List (Sphere α)) :
    (fill origin edge dims spheres).size = volume dims := by
  have hfold (numbered : List (Sphere α × ℕ)) (cells : Array (List ℕ)) : (numbered.foldl
      (fun cells s ↦ register dims cells s.2 (range? origin edge dims s.1)) cells).size =
        cells.size := by
    induction numbered generalizing cells with
    | nil => rfl
    | cons s rest ih => exact (ih _).trans (size_register dims cells s.2 _)
  exact (hfold _ _).trans Array.size_replicate

/-- The block of a sphere has the cells that it touches along the axes. -/
theorem mem_range?_of_axes {s : Sphere α} {x y z : ℕ × ℕ}
    (hx : x ∈ rangeAlong? dims.x edge (s.center - origin).x s.radius)
    (hy : y ∈ rangeAlong? dims.y edge (s.center - origin).y s.radius)
    (hz : z ∈ rangeAlong? dims.z edge (s.center - origin).z s.radius) :
    (⟨⟨x.1, y.1, z.1⟩, ⟨x.2, y.2, z.2⟩⟩ : CellRange) ∈ range? origin edge dims s := by
  rw [Option.mem_def] at hx hy hz ⊢
  unfold range?
  simp only [hx, hy, hz]
  rfl

/-- A query comes upon the spheres that a cell of its block lists. -/
theorem mem_candidates {g : GridIndex α} {query : Sphere α} {number : ℕ} :
    number ∈ g.candidates query ↔ ∃ block ∈ range? g.origin g.edge g.dims query,
      ∃ cell ∈ cellNumbers g.dims block, number ∈ listed g.cells cell := by
  unfold candidates
  cases range? g.origin g.edge g.dims query with
  | none => simp
  | some block => simp [listed]

end GridIndex

end Collision
