import Collision.Proofs.Grid.Queries

/-!
# The layout of a grid

How a grid is laid out over spheres of nonnegative radius, in exact arithmetic and for any requested
edge.

* The edge is grown as long as there are too many cells. `GridIndex.CoarsensTo` says that this loop
  ends with an edge; the rounds that `GridIndex.edgeFor` allows are always enough.
* Blocks of cells stay inside the grid whatever sphere they belong to (`GridIndex.range?_within`),
  so the numbers of their cells are below the number of cells and all different
  (`GridIndex.cellNumbers_nodup`).
* A sphere that the grid was built over touches a cell (`GridIndex.exists_mem_visited`), and no cell
  lists it twice (`GridIndex.nodup_listed_fill`).

`SphereGrid.build_layout` puts this together.
-/

set_option autoImplicit false
set_option relaxedAutoImplicit false

namespace Collision

namespace GridIndex

/-! ### Growing the edge -/

section Coarsening

variable {α : Type} [Scalar α]

/-- The edge after one round of coarsening. -/
def grown (extent : Vec3 α) (limit edge : α) : α :=
  edge * Scalar.max (Scalar.cbrt (cellCount extent edge / limit)) 1.01

/-- Growing an edge as long as the number of cells is above a limit ends, and ends with `final`. -/
def CoarsensTo (extent : Vec3 α) (limit start final : α) : Prop :=
  ∃ rounds, (grown extent limit)^[rounds] start = final ∧
    (∀ earlier < rounds, limit < cellCount extent ((grown extent limit)^[earlier] start)) ∧
    ¬ limit < cellCount extent final

theorem coarsensTo_coarsen {extent : Vec3 α} {limit edge : α} {rounds : ℕ}
    (h : ¬ limit < cellCount extent (coarsen extent limit rounds edge)) :
    CoarsensTo extent limit edge (coarsen extent limit rounds edge) := by
  induction rounds generalizing edge with
  | zero => exact ⟨0, rfl, nofun, h⟩
  | succ rounds ih =>
    by_cases hcount : limit < cellCount extent edge
    · have hnext : coarsen extent limit (rounds + 1) edge =
          coarsen extent limit rounds (grown extent limit edge) := by
        rw [coarsen, if_pos hcount]
        rfl
      rw [hnext] at h ⊢
      obtain ⟨more, hfinal, hearlier, hlast⟩ := ih h
      refine ⟨more + 1, hfinal, fun earlier hlt ↦ ?_, hlast⟩
      cases earlier with
      | zero => exact hcount
      | succ earlier => exact hearlier earlier (Nat.lt_of_succ_lt_succ hlt)
    · rw [coarsen, if_neg hcount] at h ⊢
      exact ⟨0, rfl, nofun, h⟩

end Coarsening

theorem le_coarsen {extent : Vec3 ℝ} {limit edge : ℝ} (hedge : 0 < edge) (rounds : ℕ) :
    edge ≤ coarsen extent limit rounds edge := by
  induction rounds generalizing edge with
  | zero => exact le_refl edge
  | succ rounds ih =>
    by_cases hcount : limit < cellCount extent edge
    · obtain ⟨factor, hfactor, hnext⟩ := coarsen_succ_of_lt hcount rounds
      have hlonger : edge ≤ edge * factor := le_mul_of_one_le_right hedge.le (by linarith)
      rw [hnext]
      exact hlonger.trans (ih (hedge.trans_le hlonger))
    · rw [coarsen_succ_of_le hcount]

/-- The loop ends with the edge that is chosen, however small the requested edge is. -/
theorem coarsensTo_edgeFor (spheres : List (Sphere ℝ)) (extent : Vec3 ℝ) (requested : ℝ) :
    CoarsensTo extent (budget spheres.length : ℝ) (startEdge spheres requested)
      (edgeFor spheres extent requested) :=
  coarsensTo_coarsen (not_lt.mpr (cellCount_edgeFor_le spheres extent requested))

/-! ### Cells inside the grid -/

/-- A block of cells lies in a grid. -/
structure Within (dims : CellPlace) (range : CellRange) : Prop where
  x : range.last.x < dims.x
  y : range.last.y < dims.y
  z : range.last.z < dims.z

theorem Within.number_lt {dims : CellPlace} {range : CellRange} (h : Within dims range) {cell : ℕ}
    (hcell : cell ∈ cellNumbers dims range) : cell < volume dims := by
  obtain ⟨place, ⟨hx, hy, hz⟩, rfl⟩ := mem_cellNumbers.mp hcell
  exact CellPlace.number_lt_volume (hx.2.trans_lt h.x) (hy.2.trans_lt h.y) (hz.2.trans_lt h.z)

theorem cellsAlong_pos (length edge : ℝ) : 0 < Scalar.toNat (cellsAlong length edge) := by
  have hone : (1 : ℝ) ≤ cellsAlong length edge := by
    unfold cellsAlong
    rw [Scalar.max_real, Scalar.one_real]
    exact le_max_right _ _
  rw [← natCast_toNat_cellsAlong] at hone
  exact_mod_cast hone

theorem rangeAlong?_lt {count : ℕ} (hcount : 0 < count) {edge place radius : ℝ} {range : ℕ × ℕ}
    (h : range ∈ rangeAlong? count edge place radius) : range.2 < count := by
  rw [rangeAlong?_eq] at h
  split_ifs at h
  · cases h
  · obtain rfl := Option.some_inj.mp h
    show (min _ ((count - 1 : ℕ) : ℤ)).toNat < count
    omega

/-- The block of any sphere lies in the grid. -/
theorem range?_within {origin extent : Vec3 ℝ} {edge : ℝ} {s : Sphere ℝ} {range : CellRange}
    (h : range ∈ range? origin edge (dimsFor extent edge) s) :
    Within (dimsFor extent edge) range := by
  unfold range? at h
  simp only [Option.mem_def, Option.bind_eq_bind, Option.bind_eq_some_iff, Option.pure_def] at h
  obtain ⟨x, hx, y, hy, z, hz, hrange⟩ := h
  obtain rfl := Option.some_inj.mp hrange
  exact ⟨rangeAlong?_lt (cellsAlong_pos _ _) hx, rangeAlong?_lt (cellsAlong_pos _ _) hy,
    rangeAlong?_lt (cellsAlong_pos _ _) hz⟩

/-! ### No cell twice -/

theorem interval_nodup (first last : ℕ) : (interval first last).Nodup :=
  List.nodup_range.map fun _ _ h ↦ Nat.add_left_cancel h

theorem div_of_low {high low width : ℕ} (hlow : low < width) :
    (high * width + low) / width = high := by
  rw [Nat.add_comm, Nat.add_mul_div_right _ _ (by omega), Nat.div_eq_of_lt hlow, Nat.zero_add]

/-- Lists without repeats, put together for different members that can be told from theirs. -/
theorem nodup_flatMap_of_key {β γ : Type} {members : List β} {lists : β → List γ} (key : γ → β)
    (hmembers : members.Nodup) (hlists : ∀ b ∈ members, (lists b).Nodup)
    (hkey : ∀ b ∈ members, ∀ c ∈ lists b, key c = b) : (members.flatMap lists).Nodup := by
  refine List.nodup_flatMap.mpr ⟨hlists, hmembers.imp_of_mem fun hb hc hne d hd hd' ↦ hne ?_⟩
  exact (hkey _ hb d hd).symm.trans (hkey _ hc d hd')

/-- The cells of a block in the grid have different numbers: the digits can be read off a number. -/
theorem cellNumbers_nodup {dims : CellPlace} {range : CellRange} (h : Within dims range) :
    (cellNumbers dims range).Nodup := by
  refine nodup_flatMap_of_key (fun c ↦ c / dims.x / dims.y) (interval_nodup _ _) (fun k _ ↦ ?_) ?_
  · refine nodup_flatMap_of_key (fun c ↦ c / dims.x - k * dims.y) (interval_nodup _ _)
      (fun j _ ↦ (interval_nodup _ _).map fun _ _ ↦ Nat.add_left_cancel) fun j _ c hc ↦ ?_
    obtain ⟨i, hi, rfl⟩ := List.mem_map.mp hc
    rw [div_of_low ((mem_interval.mp hi).2.trans_lt h.x), Nat.add_sub_cancel_left]
  · intro k _ c hc
    obtain ⟨j, hj, hc⟩ := List.mem_flatMap.mp hc
    obtain ⟨i, hi, rfl⟩ := List.mem_map.mp hc
    rw [div_of_low ((mem_interval.mp hi).2.trans_lt h.x),
      div_of_low ((mem_interval.mp hj).2.trans_lt h.y)]

theorem listed_modify_of_ne (cells : Array (List ℕ)) (number : ℕ) {place cell : ℕ}
    (h : place ≠ cell) : listed (cells.modify place (number :: ·)) cell = listed cells cell := by
  unfold listed
  rw [Array.getElem?_modify, if_neg h]

theorem nodup_listed_modify {cells : Array (List ℕ)} {number cell : ℕ}
    (hcells : (listed cells cell).Nodup) (hfresh : number ∉ listed cells cell) (place : ℕ) :
    (listed (cells.modify place (number :: ·)) cell).Nodup := by
  by_cases hplace : place = cell
  · subst hplace
    unfold listed at hcells hfresh ⊢
    rw [Array.getElem?_modify, if_pos rfl]
    rcases hcell : cells[place]? with _ | numbers
    · exact List.nodup_nil
    · rw [hcell] at hcells hfresh
      exact List.nodup_cons.mpr ⟨hfresh, hcells⟩
  · rwa [listed_modify_of_ne cells number hplace]

theorem listed_foldl_modify_of_notMem {cells : Array (List ℕ)} {number cell : ℕ} {places : List ℕ}
    (hcell : cell ∉ places) :
    listed (places.foldl (fun cells c ↦ cells.modify c (number :: ·)) cells) cell =
      listed cells cell := by
  induction places generalizing cells with
  | nil => rfl
  | cons c rest ih =>
    obtain ⟨hne, hrest⟩ := List.ne_and_not_mem_of_not_mem_cons hcell
    rw [List.foldl_cons, ih hrest, listed_modify_of_ne cells number hne.symm]

/-- Listing a number with different cells lists it once with each. -/
theorem nodup_listed_foldl_modify {cells : Array (List ℕ)} {number cell : ℕ} {places : List ℕ}
    (hplaces : places.Nodup) (hcells : (listed cells cell).Nodup)
    (hfresh : number ∉ listed cells cell) :
    (listed (places.foldl (fun cells c ↦ cells.modify c (number :: ·)) cells) cell).Nodup := by
  induction places generalizing cells with
  | nil => exact hcells
  | cons c rest ih =>
    obtain ⟨hc, hrest⟩ := List.nodup_cons.mp hplaces
    rw [List.foldl_cons]
    by_cases hcell : c = cell
    · rw [listed_foldl_modify_of_notMem (hcell ▸ hc)]
      exact nodup_listed_modify hcells hfresh c
    · refine ih hrest ?_ ?_ <;> rwa [listed_modify_of_ne cells number hcell]

section Filling

variable {origin extent : Vec3 ℝ} {edge : ℝ}

/-- Listing spheres of different numbers, each with the cells of its block, lists none twice. -/
theorem nodup_listed_foldl_register {cells : Array (List ℕ)} {cell : ℕ}
    {numbered : List (Sphere ℝ × ℕ)} (hnumbers : (numbered.map Prod.snd).Nodup)
    (hcells : (listed cells cell).Nodup) (hfresh : ∀ s ∈ numbered, s.2 ∉ listed cells cell) :
    (listed (numbered.foldl (fun cells s ↦ register (dimsFor extent edge) cells s.2
      (range? origin edge (dimsFor extent edge) s.1)) cells) cell).Nodup := by
  induction numbered generalizing cells with
  | nil => exact hcells
  | cons s rest ih =>
    obtain ⟨hs, hrest⟩ := List.nodup_cons.mp hnumbers
    refine ih hrest ?_ fun t ht hlisted ↦ ?_
    · have hsFresh := hfresh s List.mem_cons_self
      dsimp only
      rcases hrange : range? origin edge (dimsFor extent edge) s.1 with _ | range
      · exact hcells
      · exact nodup_listed_foldl_modify (cellNumbers_nodup (range?_within hrange)) hcells hsFresh
    · rcases mem_listed_register.mp hlisted with hold | ⟨hsame, -⟩
      · exact hfresh t (.tail s ht) hold
      · exact hs (hsame ▸ List.mem_map_of_mem ht)

/-- No cell lists a sphere twice. -/
theorem nodup_listed_fill (spheres : List (Sphere ℝ)) (cell : ℕ) :
    (listed (fill origin edge (dimsFor extent edge) spheres) cell).Nodup := by
  refine nodup_listed_foldl_register ?_ ?_ fun s _ ↦ ?_
  · rw [List.zipIdx_map_snd]
    exact List.nodup_range'
  · rw [listed_replicate]
    exact List.nodup_nil
  · rw [listed_replicate]
    exact List.not_mem_nil

end Filling

/-! ### Cells that are looked up -/

/-- The numbers of the cells that are looked up for a sphere: by a query, or when the grid is built
over the sphere. -/
def visited {α : Type} [Scalar α] (g : GridIndex α) (s : Sphere α) : List ℕ :=
  match range? g.origin g.edge g.dims s with
  | none => []
  | some range => cellNumbers g.dims range

/-- A query comes upon what is listed with the cells that are looked up for it. -/
theorem candidates_eq {α : Type} [Scalar α] (g : GridIndex α) (query : Sphere α) :
    g.candidates query = (g.visited query).flatMap (listed g.cells) := by
  unfold candidates visited
  cases range? g.origin g.edge g.dims query with
  | none => rfl
  | some range => rfl

theorem mem_visited {g : GridIndex ℝ} {s : Sphere ℝ} {cell : ℕ} : cell ∈ g.visited s ↔
    ∃ range ∈ range? g.origin g.edge g.dims s, cell ∈ cellNumbers g.dims range := by
  unfold visited
  cases range? g.origin g.edge g.dims s with
  | none => simp
  | some range => simp

variable {spheres : List (Sphere ℝ)} {s : Sphere ℝ}

/-- A stretch inside the grid touches a cell. -/
theorem rangeAlong?_of_inside (length p : ℝ) {edge r : ℝ} (hedge : 0 < edge) (hr : 0 ≤ r)
    (hfirst : 0 ≤ p - r) (hlast : p + r ≤ length) :
    ∃ range ∈ rangeAlong? (Scalar.toNat (cellsAlong length edge)) edge p r,
      range.1 ≤ range.2 := by
  have hfloor {a b : ℝ} (h : a ≤ b) : ⌊a / edge⌋ ≤ ⌊b / edge⌋ :=
    Int.floor_mono (div_le_div_of_nonneg_right h hedge.le)
  have hstart : 0 ≤ ⌊(p - r) / edge⌋ := Int.floor_nonneg.mpr (div_nonneg hfirst hedge.le)
  have hinside : ⌊(p - r) / edge⌋ ≤ ⌊(p + r) / edge⌋ := hfloor (by linarith)
  have hend : ⌊(p + r) / edge⌋ ≤ ⌊length / edge⌋ := hfloor hlast
  rw [toNat_cellsAlong (by linarith) hedge, rangeAlong?_eq]
  rw [if_neg (by omega)]
  exact ⟨_, rfl, by dsimp only; omega⟩

/-- A sphere that the grid was built over touches a cell. -/
theorem exists_mem_visited (hs : s ∈ spheres) (hradius : 0 ≤ s.radius) (requested : ℝ) :
    ∃ cell, cell ∈ (build spheres requested).visited s := by
  have hedge := edgeFor_pos spheres (largestCorner spheres - leastCorner spheres) requested
  have haxis (i : Fin 3) := rangeAlong?_of_inside
    ((largestCorner spheres - leastCorner spheres).get i)
    ((s.center - leastCorner spheres).get i) hedge hradius
    (by rw [Vec3.get_sub]; linarith [leastCorner_get_le hs i])
    (by rw [Vec3.get_sub, Vec3.get_sub]; linarith [le_largestCorner_get hs i])
  obtain ⟨x, hx, hlex⟩ := haxis 0
  obtain ⟨y, hy, hley⟩ := haxis 1
  obtain ⟨z, hz, hlez⟩ := haxis 2
  let first : CellPlace := ⟨x.1, y.1, z.1⟩
  exact ⟨_, mem_visited.mpr ⟨_, mem_range?_of_axes hx hy hz, mem_cellNumbers.mpr
    ⟨first, ⟨⟨le_refl _, hlex⟩, ⟨le_refl _, hley⟩, ⟨le_refl _, hlez⟩⟩, rfl⟩⟩⟩

theorem cells_build (spheres : List (Sphere ℝ)) (requested : ℝ) :
    (build spheres requested).cells = fill (build spheres requested).origin
      (build spheres requested).edge (build spheres requested).dims spheres := rfl

theorem size_build (spheres : List (Sphere ℝ)) (requested : ℝ) :
    (build spheres requested).cells.size = volume (build spheres requested).dims := by
  rw [cells_build, size_fill]

theorem size_build_pos (spheres : List (Sphere ℝ)) (requested : ℝ) :
    1 ≤ (build spheres requested).cells.size := by
  rw [size_build]
  exact Nat.mul_pos (Nat.mul_pos (cellsAlong_pos _ _) (cellsAlong_pos _ _)) (cellsAlong_pos _ _)

/-- Every cell that is looked up is a cell of the grid, for any sphere. -/
theorem lt_size_of_mem_visited {requested : ℝ} {query : Sphere ℝ} {cell : ℕ}
    (h : cell ∈ (build spheres requested).visited query) :
    cell < (build spheres requested).cells.size := by
  obtain ⟨range, hrange, hcell⟩ := mem_visited.mp h
  rw [size_build]
  exact (range?_within hrange).number_lt hcell

/-- Exactly the cells that are looked up for a sphere list it. -/
theorem mem_listed_build {requested : ℝ} {number cell : ℕ} :
    number ∈ listed (build spheres requested).cells cell ↔
      ∃ s, spheres[number]? = some s ∧ cell ∈ (build spheres requested).visited s := by
  rw [cells_build, mem_fill]
  refine exists_congr fun s ↦ and_congr_right fun _ ↦ ?_
  rw [← size_build, mem_visited]
  exact and_iff_left_of_imp fun hvisited ↦ lt_size_of_mem_visited (mem_visited.mpr hvisited)

end GridIndex

namespace SphereGrid

/-- A build in exact arithmetic over spheres of nonnegative radius, with any requested edge.

Growing the edge ends, with a positive edge that is at least the one first selected. There is at
least one cell, and there are no more than the budget says. Every sphere is listed with some cell
and none twice with a cell: the cells that list it are those that were looked up for it. All cells
that are looked up, for these spheres or for any query sphere, are cells of the grid, and queries
have this grid until the next build. -/
theorem build_layout (g : SphereGrid ℝ) (hspheres : g.spheres.toList ≠ [])
    (hradii : ∀ s ∈ g.spheres.toList, 0 ≤ s.radius) (requested : ℝ) :
    let spheres := g.spheres.toList
    let budget := max (64 * spheres.length) 4096
    let extent := GridIndex.largestCorner spheres - GridIndex.leastCorner spheres
    let start := GridIndex.startEdge spheres requested
    ∃ index, (g.build requested).index? = some index ∧
      GridIndex.CoarsensTo extent (budget : ℝ) start index.edge ∧
      0 < index.edge ∧ start ≤ index.edge ∧
      1 ≤ index.cells.size ∧ index.cells.size ≤ budget ∧
      (∀ number s, spheres[number]? = some s →
        (∃ cell < index.cells.size, number ∈ GridIndex.listed index.cells cell) ∧
          ∀ cell, number ∈ GridIndex.listed index.cells cell ↔ cell ∈ index.visited s) ∧
      (∀ cell, (GridIndex.listed index.cells cell).Nodup) ∧
      (∀ query, index.candidates query =
          (index.visited query).flatMap (GridIndex.listed index.cells) ∧
        ∀ cell ∈ index.visited query, cell < index.cells.size) ∧
      ∀ calls : List (Call ℝ), (∀ edge, .build edge ∉ calls) →
        (calls.foldl step (g.build requested)).index? = some index := by
  intro spheres budget extent start
  have hindex : (g.build requested).index? = some (.build spheres requested) := by
    show (if g.spheres.isEmpty then none else _) = _
    rw [← Array.isEmpty_toList, if_neg (by simpa using hspheres)]
  refine ⟨.build spheres requested, hindex, GridIndex.coarsensTo_edgeFor spheres extent requested,
    GridIndex.edgeFor_pos spheres extent requested,
    GridIndex.le_coarsen (GridIndex.startEdge_pos spheres requested) _,
    GridIndex.size_build_pos spheres requested, GridIndex.size_build_le spheres requested,
    fun number s hs ↦ ?_, GridIndex.nodup_listed_fill spheres,
    fun query ↦ ⟨GridIndex.candidates_eq _ query, fun cell ↦ GridIndex.lt_size_of_mem_visited⟩,
    fun calls hcalls ↦ (index?_foldl_step hcalls).trans hindex⟩
  have hlisted (cell : ℕ) : number ∈ GridIndex.listed (GridIndex.build spheres requested).cells cell ↔
      cell ∈ (GridIndex.build spheres requested).visited s := by
    rw [GridIndex.mem_listed_build, hs]
    simp
  have hmem : s ∈ spheres := List.mem_of_getElem? hs
  obtain ⟨cell, hcell⟩ := GridIndex.exists_mem_visited hmem (hradii s hmem) requested
  exact ⟨⟨cell, GridIndex.lt_size_of_mem_visited hcell, (hlisted cell).mpr hcell⟩, hlisted⟩

/-- Two far balls, one of them a point, and a requested edge that would need a million cells. -/
theorem build_layout_far_balls :
    let g : SphereGrid ℝ := ⟨#[⟨⟨0, 0, 0⟩, 0⟩, ⟨⟨1000, 0, 0⟩, 1⟩], none⟩
    g.spheres.toList ≠ [] ∧ (∀ s ∈ g.spheres.toList, 0 ≤ s.radius) ∧
      ∃ index, (g.build (1 / 1000)).index? = some index ∧ 1 / 1000 ≤ index.edge ∧
        1 ≤ index.cells.size ∧ index.cells.size ≤ 4096 := by
  intro g
  have hspheres : g.spheres.toList ≠ [] := List.cons_ne_nil _ _
  have hradii : ∀ s ∈ g.spheres.toList, 0 ≤ s.radius :=
    List.forall_mem_cons.mpr ⟨le_refl 0, List.forall_mem_singleton.mpr zero_le_one⟩
  obtain ⟨index, hindex, -, -, hstart, hone, hbudget, -⟩ :=
    build_layout g hspheres hradii (1 / 1000)
  have hedge : GridIndex.startEdge g.spheres.toList (1 / 1000) = 1 / 1000 := by
    simp [GridIndex.startEdge]
  exact ⟨hspheres, hradii, index, hindex, hedge ▸ hstart, hone, hbudget⟩

end SphereGrid

end Collision
