import Collision.Space.Vector

/-!
# Grids of spheres

Many spheres, asked whether a query sphere overlaps one of them. A uniform grid lists with every
cell the spheres whose bounding boxes touch it, so that overlapping spheres share a cell.

Main definitions.

* `SphereGrid` is a list of spheres with the `GridIndex` of its last build, if there was one.
* `GridIndex.edgeFor` is the cell edge: as requested, or twice the mean radius, and coarsened until
  the number of cells is within `GridIndex.budget`.
* `GridIndex.range?` are the cells that the bounding box of a sphere touches.
* `SphereGrid.collide` asks the cells, `SphereGrid.collideAll` asks every sphere.
-/

set_option autoImplicit false
set_option relaxedAutoImplicit false

namespace Collision

/-- A sphere. -/
structure Sphere (α : Type) where
  center : Vec3 α
  radius : α
  deriving Inhabited

/-- The spheres overlap by more than a point. -/
def Sphere.overlaps {α : Type} [Scalar α] (a b : Sphere α) : Bool :=
  decide ((a.center - b.center).norm < a.radius + b.radius)

/-- The place of a cell, or the number of cells, along the three axes. -/
structure CellPlace where
  x : Nat
  y : Nat
  z : Nat
  deriving DecidableEq, Repr, Inhabited

/-- A block of cells, both ends included. -/
structure CellRange where
  first : CellPlace
  last : CellPlace
  deriving DecidableEq, Repr, Inhabited

/-- The grid over a list of spheres. -/
structure GridIndex (α : Type) where
  /-- The least corner of the grid. -/
  origin : Vec3 α
  /-- The edge of a cell. -/
  edge : α
  /-- The numbers of cells along the axes. -/
  dims : CellPlace
  /-- The numbers of the spheres that touch a cell, x running fastest and z slowest. -/
  cells : Array (List Nat)
  deriving Inhabited

namespace GridIndex

variable {α : Type} [Scalar α]

/-! ### Layout -/

/-- The least corner of the box around spheres. -/
def leastCorner (spheres : List (Sphere α)) : Vec3 α :=
  match spheres.map fun s => s.center - Vec3.replicate s.radius with
  | [] => Vec3.zero
  | p :: rest => rest.foldl Vec3.lesser p

/-- The largest corner of the box around spheres. -/
def largestCorner (spheres : List (Sphere α)) : Vec3 α :=
  match spheres.map fun s => s.center + Vec3.replicate s.radius with
  | [] => Vec3.zero
  | p :: rest => rest.foldl Vec3.greater p

/-- The number of cells that cover a length, as a scalar. -/
def cellsAlong (length edge : α) : α := Scalar.max (Scalar.floor (length / edge) + 1) 1

/-- The number of cells that cover a box, as a scalar. -/
def cellCount (extent : Vec3 α) (edge : α) : α :=
  cellsAlong extent.x edge * cellsAlong extent.y edge * cellsAlong extent.z edge

/-- The number of cells that a number of spheres may have. -/
def budget (spheres : Nat) : Nat := Nat.max (64 * spheres) 4096

/-- The edge grown until the number of cells is within the limit, for a number of rounds. -/
def coarsen (extent : Vec3 α) (limit : α) : Nat → α → α
  | 0, edge => edge
  | rounds + 1, edge =>
    let count := cellCount extent edge
    if limit < count then
      coarsen extent limit rounds (edge * Scalar.max (Scalar.cbrt (count / limit)) 1.01)
    else edge

/-- Rounds enough to coarsen: every round adds at least a hundredth of the first edge, and an edge
longer than the box leaves one cell. -/
def coarsenRounds (extent : Vec3 α) (edge : α) : Nat :=
  let longest := Scalar.max (Scalar.max extent.x extent.y) extent.z
  Scalar.toNat (100 * (longest / edge)) + 1

/-- The edge to start from: the requested one if it is positive, twice the mean radius otherwise,
and one where that is not a positive number either. -/
def startEdge (spheres : List (Sphere α)) (requested : α) : α :=
  let edge := if 0 < requested then requested
    else 2 * Scalar.sum (spheres.map Sphere.radius) / Scalar.ofNat spheres.length
  if Scalar.isFinite edge ∧ 0 < edge then edge else 1

/-- The edge of the cells for spheres in a box of the given extent. -/
def edgeFor (spheres : List (Sphere α)) (extent : Vec3 α) (requested : α) : α :=
  let edge := startEdge spheres requested
  coarsen extent (Scalar.ofNat (budget spheres.length)) (coarsenRounds extent edge) edge

/-- The numbers of cells along the axes of a box. -/
def dimsFor (extent : Vec3 α) (edge : α) : CellPlace :=
  { x := Scalar.toNat (cellsAlong extent.x edge)
    y := Scalar.toNat (cellsAlong extent.y edge)
    z := Scalar.toNat (cellsAlong extent.z edge) }

/-! ### Cells -/

/-- The number of all cells. -/
def volume (dims : CellPlace) : Nat := dims.x * dims.y * dims.z

/-- The first and the last of `count` cells that the stretch of a radius around a place touches. -/
def rangeAlong? (count : Nat) (edge place radius : α) : Option (Nat × Nat) :=
  let first := Scalar.floor ((place - radius) / edge)
  let last := Scalar.floor ((place + radius) / edge)
  let final : α := Scalar.ofNat (count - 1)
  if last < 0 ∨ final < first then none
  else some (Scalar.toNat (Scalar.max first 0), Scalar.toNat (Scalar.min last final))

/-- The cells that the bounding box of a sphere touches. -/
def range? (origin : Vec3 α) (edge : α) (dims : CellPlace) (s : Sphere α) : Option CellRange := do
  let place := s.center - origin
  let x ← rangeAlong? dims.x edge place.x s.radius
  let y ← rangeAlong? dims.y edge place.y s.radius
  let z ← rangeAlong? dims.z edge place.z s.radius
  return ⟨⟨x.1, y.1, z.1⟩, ⟨x.2, y.2, z.2⟩⟩

/-- The natural numbers from `first` to `last`. -/
def interval (first last : Nat) : List Nat := (List.range (last + 1 - first)).map (first + ·)

/-- The numbers of the cells in a block. -/
def cellNumbers (dims : CellPlace) (range : CellRange) : List Nat :=
  (interval range.first.z range.last.z).flatMap fun k =>
    (interval range.first.y range.last.y).flatMap fun j =>
      (interval range.first.x range.last.x).map fun i => (k * dims.y + j) * dims.x + i

/-- List a sphere with every cell of its block. -/
def register (dims : CellPlace) (cells : Array (List Nat)) (number : Nat)
    (range : Option CellRange) : Array (List Nat) :=
  match range with
  | none => cells
  | some range =>
    (cellNumbers dims range).foldl (fun cells c => cells.modify c (number :: ·)) cells

/-- The cells of a layout with the spheres that touch them. -/
def fill (origin : Vec3 α) (edge : α) (dims : CellPlace) (spheres : List (Sphere α)) :
    Array (List Nat) :=
  spheres.zipIdx.foldl (fun cells s => register dims cells s.2 (range? origin edge dims s.1))
    (Array.replicate (volume dims) [])

/-- The grid over spheres with a requested edge. -/
def build (spheres : List (Sphere α)) (requested : α) : GridIndex α :=
  let origin := leastCorner spheres
  let extent := largestCorner spheres - origin
  let edge := edgeFor spheres extent requested
  let dims := dimsFor extent edge
  { origin, edge, dims, cells := fill origin edge dims spheres }

/-- The numbers of the spheres listed with the cells that a query sphere touches. -/
def candidates (g : GridIndex α) (query : Sphere α) : List Nat :=
  match range? g.origin g.edge g.dims query with
  | none => []
  | some range => (cellNumbers g.dims range).flatMap fun c => g.cells[c]?.getD []

end GridIndex

/-- A list of spheres with the grid of its last build. -/
structure SphereGrid (α : Type) where
  spheres : Array (Sphere α)
  index? : Option (GridIndex α)

namespace SphereGrid

variable {α : Type} [Scalar α]

/-- No spheres, not built. -/
def empty : SphereGrid α := ⟨#[], none⟩

/-- The list with one more sphere; the grid does not have it before the next build. -/
def add (g : SphereGrid α) (s : Sphere α) : SphereGrid α := { g with spheres := g.spheres.push s }

/-- The grid over all spheres; there is none over no spheres. -/
def build (g : SphereGrid α) (requested : α) : SphereGrid α :=
  { g with
    index? := if g.spheres.isEmpty then none else some (.build g.spheres.toList requested) }

/-- The edge of the cells, zero without a grid. -/
def edge (g : SphereGrid α) : α := (g.index?.map GridIndex.edge).getD 0

/-- The number of cells. -/
def cellCount (g : SphereGrid α) : Nat := (g.index?.map fun index => index.cells.size).getD 0

/-- The query sphere overlaps a sphere of the grid. -/
def collide (g : SphereGrid α) (query : Sphere α) : Bool :=
  match g.index? with
  | none => false
  | some index => (index.candidates query).any fun i =>
      (g.spheres[i]?.map fun s => s.overlaps query).getD false

/-- The query sphere overlaps a sphere of the list. -/
def collideAll (g : SphereGrid α) (query : Sphere α) : Bool :=
  g.spheres.any fun s => s.overlaps query

end SphereGrid

end Collision
