import Collision.Proofs.Tree.Row
import Mathlib.Data.Nat.Log
import Mathlib.Tactic.Ring

/-!
# The row of a built tree

However a tree is built, over any list of parts and in any arithmetic, its row has the same form:
the leaves with the parts in the order in which they were given, every other node behind its two
children, and the root last (`BoxTree.RowOver`).

Splitting and merging number the nodes from the number of parts on. `BoxTree.topDown_places` and
`BoxTree.mergeNearest_places` say which places are given out, and a tree is laid because all of them
together are the numbers below its size. Joining puts the one row behind the other
(`BoxTree.row_append`), so the form of the row passes on to the whole by `BoxTree.build?_induction`.

The rounds of joining neighbours are also what workers with one slot each do, level by level
(`BoxTree.fanIn`): after a level, a slot whose number is divisible by the next power of two holds
what a round makes of it and its neighbour, and the other slots are empty (`BoxTree.fanIn_eq`).

* `BoxTree.row_of_built_tree` is the statement for trees as they are built.
-/

set_option autoImplicit false
set_option relaxedAutoImplicit false

namespace Collision

/-! ### Pieces -/

/-- A piece is a stretch of the list; there are pieces as far as the list goes. -/
theorem getElem?_pieces {β : Type} (size : ℕ) (members : List β) (w : ℕ) :
    (pieces size members)[w]? =
      if w * (size + 1) < members.length then
        some ((members.drop (w * (size + 1))).take (size + 1))
      else none := by
  fun_induction pieces size members generalizing w with
  | case1 => simp
  | case2 b rest ih =>
    cases w with
    | zero => simp
    | succ w =>
      rw [List.getElem?_cons_succ, ih w, List.length_drop, List.drop_drop, List.length_cons]
      have hdrop : (b :: rest).drop ((w + 1) * (size + 1)) = rest.drop (size + w * (size + 1)) := by
        rw [show (w + 1) * (size + 1) = size + w * (size + 1) + 1 by ring, List.drop_succ_cons]
      have hiff : w * (size + 1) < rest.length - size ↔
          (w + 1) * (size + 1) < rest.length + 1 := by
        rw [show (w + 1) * (size + 1) = w * (size + 1) + size + 1 by ring]
        omega
      simp only [hdrop, hiff]

namespace BoxTree

variable {α : Type}

/-! ### Splitting -/

/-- A tree over leaves at given places, whose other nodes have the places from `next` up to `stop`,
a parent after its children. -/
structure Numbers (leafPlaces : List ℕ) (next stop : ℕ) (t : BoxTree α) : Prop where
  next_le : next ≤ stop
  places_perm : t.nodePlaces.Perm (leafPlaces ++ List.range' next (stop - next))
  rising : t.Rising

theorem Numbers.place_lt {leafPlaces : List ℕ} {next stop : ℕ} {t : BoxTree α}
    (h : t.Numbers leafPlaces next stop) (hbound : ∀ place ∈ leafPlaces, place < next) :
    t.place < stop := by
  have hle := h.next_le
  have hmem := h.places_perm.subset (place_mem_nodePlaces t.self_mem_subtrees)
  rcases List.mem_append.mp hmem with hmem | hmem
  · have hlt := hbound _ hmem
    omega
  · have hlt := (List.mem_range'_1.mp hmem).2
    omega

theorem Numbers.perm_range {next stop : ℕ} {t : BoxTree α}
    (h : t.Numbers (List.range next) next stop) : t.nodePlaces.Perm (List.range stop) := by
  have hrange : List.range next ++ List.range' next (stop - next) = List.range stop := by
    have happend := List.range'_append_1 (s := 0) (m := next) (n := stop - next)
    rwa [Nat.zero_add, Nat.add_sub_of_le h.next_le, ← List.range_eq_range',
      ← List.range_eq_range'] at happend
  rw [← hrange]
  exact h.places_perm

theorem Numbers.node {leftPlaces rightPlaces : List ℕ} {next middle stop : ℕ}
    {left right : BoxTree α} (hleft : left.Numbers leftPlaces next middle)
    (hright : right.Numbers rightPlaces middle stop)
    (hbound : ∀ place ∈ leftPlaces ++ rightPlaces, place < next) (box : OrientedBox α) :
    (BoxTree.node stop box left right).Numbers (leftPlaces ++ rightPlaces) next (stop + 1) := by
  obtain ⟨hboundLeft, hboundRight⟩ := List.forall_mem_append.mp hbound
  have hmiddle := hleft.next_le
  have hstop := hright.next_le
  have hleftplace := hleft.place_lt hboundLeft
  have hrightplace := hright.place_lt fun place hplace ↦
    Nat.lt_of_lt_of_le (hboundRight place hplace) hmiddle
  refine ⟨by omega, ?_, rising_node_iff.mpr ⟨⟨by omega, hrightplace⟩, hleft.rising, hright.rising⟩⟩
  have hrange : List.range' next (stop + 1 - next) =
      List.range' next (middle - next) ++ List.range' middle (stop - middle) ++ [stop] := by
    rw [show stop + 1 - next = (middle - next) + ((stop - middle) + 1) by omega,
      ← List.range'_append_1, show next + (middle - next) = middle by omega,
      List.range'_1_concat, show middle + (stop - middle) = stop by omega, List.append_assoc]
  rw [nodePlaces_node, hrange, ← List.append_assoc]
  refine List.Perm.trans ?_ (List.perm_append_singleton _ _).symm
  refine ((hleft.places_perm.append hright.places_perm).trans ?_).cons stop
  rw [List.append_assoc, List.append_assoc]
  refine List.Perm.append_left _ ?_
  rw [← List.append_assoc, ← List.append_assoc]
  exact List.perm_append_comm.append_right _

variable [Scalar α]

theorem topDown_numbers (method : FitMethod) (parts : List (ℕ × Part α)) (h : parts ≠ [])
    (next : ℕ) (hbound : ∀ place ∈ parts.map Prod.fst, place < next) :
    (topDown method parts h next).1.Numbers (parts.map Prod.fst) next
      (topDown method parts h next).2 := by
  fun_induction topDown method parts h next with
  | case1 parts h next hone entry =>
    have hlength : parts.length = 1 := by
      have hpos := List.length_pos_of_ne_nil h
      omega
    obtain ⟨only, rfl⟩ := List.length_eq_one_iff.mp hlength
    refine ⟨Nat.le_refl _, ?_, rising_leaf _⟩
    rw [Nat.sub_self]
    exact .refl _
  | case2 parts h next hmany box split hlength hnil hleft hright left right ihLeft _ ihRight =>
    have hsplit : (split.1.map Prod.fst ++ split.2.map Prod.fst).Perm (parts.map Prod.fst) := by
      rw [← List.map_append]
      exact (halves_perm _ _).map Prod.fst
    have hboth : ∀ place ∈ split.1.map Prod.fst ++ split.2.map Prod.fst, place < next :=
      fun place hplace ↦ hbound place (hsplit.subset hplace)
    obtain ⟨hboundLeft, hboundRight⟩ := List.forall_mem_append.mp hboth
    have hnumbersLeft := ihLeft hboundLeft
    have hnumbersRight := ihRight fun place hplace ↦
      Nat.lt_of_lt_of_le (hboundRight place hplace) hnumbersLeft.next_le
    obtain ⟨hnext, hperm, hrising⟩ := hnumbersLeft.node hnumbersRight hboth box
    exact ⟨hnext, hperm.trans (hsplit.append_right _), hrising⟩

/-! ### Merging -/

/-- Trees with the places below `next` among them, in each a parent after its children. -/
structure Sharing (next : ℕ) (groves : List (Grove α)) : Prop where
  places_perm : (groves.flatMap fun g ↦ g.tree.nodePlaces).Perm (List.range next)
  rising : ∀ g ∈ groves, g.tree.Rising

/-- The common tree of a merge takes the next place. -/
theorem Sharing.mergeNearest {next : ℕ} {groves : List (Grove α)} (h : Sharing next groves)
    (method : FitMethod) (hmany : 2 ≤ groves.length) :
    Sharing (next + 1) (mergeNearest method next groves) := by
  obtain ⟨a, b, rest, hperm, hmerge⟩ := mergeNearest_eq method next hmany
  have hplaces := (hperm.flatMap_right fun g ↦ g.tree.nodePlaces).trans h.places_perm
  rw [List.flatMap_cons, List.flatMap_cons] at hplaces
  have hbelow : ∀ g ∈ groves, g.tree.place < next := by
    intro g hg
    have hmem : g.tree.place ∈ groves.flatMap fun g ↦ g.tree.nodePlaces :=
      List.mem_flatMap.mpr ⟨g, hg, place_mem_nodePlaces g.tree.self_mem_subtrees⟩
    exact List.mem_range.mp (h.places_perm.subset hmem)
  have ha : a ∈ groves := hperm.subset List.mem_cons_self
  have hb : b ∈ groves := hperm.subset (.tail _ List.mem_cons_self)
  rw [hmerge]
  refine ⟨?_, fun g hg ↦ ?_⟩
  · simp only [List.flatMap_append, List.flatMap_cons, List.flatMap_nil, List.append_nil,
      Grove.join, nodePlaces_node]
    rw [List.range_succ]
    refine List.perm_middle.trans (List.Perm.trans ?_ (List.perm_append_singleton _ _).symm)
    refine (List.Perm.trans ?_ hplaces).cons next
    refine List.perm_append_comm.trans ?_
    rw [List.append_assoc]
  · rcases List.mem_append.mp hg with hg | hg
    · exact h.rising g (hperm.subset (.tail _ (.tail _ hg)))
    · obtain rfl := List.mem_singleton.mp hg
      exact rising_node_iff.mpr ⟨⟨hbelow a ha, hbelow b hb⟩, h.rising a ha, h.rising b hb⟩

/-- Merging numbered parts gives out one place for every part but one. -/
theorem bottomUp?_places (method : FitMethod) {parts : List (Part α)} (h : parts ≠ []) :
    ∃ t, bottomUp? method (numbered parts) parts.length = some t ∧
      t.nodePlaces.Perm (List.range (parts.length + (parts.length - 1))) ∧ t.Rising := by
  have hpos := List.length_pos_of_ne_nil h
  have hlength : (numbered parts).length = parts.length := by simp [numbered]
  have hstart : Sharing parts.length
      ((numbered parts).map fun entry ↦ Grove.mk (single entry.1 entry.2) [entry.2]) := by
    refine ⟨?_, fun g hg ↦ ?_⟩
    · rw [List.flatMap_map, ← map_fst_numbered, ← List.flatMap_pure_eq_map]
      exact .refl _
    · obtain ⟨entry, -, rfl⟩ := List.mem_map.mp hg
      exact rising_leaf _
  obtain ⟨g, hg, hshared⟩ := merges_induction (P := Sharing)
    (fun next groves hmany hshared ↦ hshared.mergeNearest method hmany) (parts.length - 1)
    parts.length (by rw [List.length_map]; omega) hstart
  have hplaces := hshared.places_perm
  rw [List.flatMap_singleton] at hplaces
  refine ⟨g.tree, ?_, hplaces, hshared.rising g List.mem_cons_self⟩
  rw [bottomUp?, hlength, hg]
  rfl

/-! ### The row of a piece -/

/-- Its tree is laid, and the row of the tree has the parts at its leaves in their order. -/
structure Grove.InOrder (g : Grove α) : Prop where
  laid : g.tree.Laid
  parts_row : g.tree.row.filterMap part? = g.parts

omit [Scalar α] in
theorem inOrder_of_places {t : BoxTree α} {parts : List (Part α)} {count : ℕ}
    (hplaces : t.nodePlaces.Perm (List.range count)) (hrising : t.Rising)
    (hentries : t.entries.Perm (numbered parts)) : (Grove.mk t parts).InOrder where
  laid := laid_of_places hplaces hrising
  parts_row := (laid_of_places hplaces hrising).filterMap_part?_row hentries

theorem buildPiece?_inOrder (config : BuildConfig) {parts : List (Part α)} (h : parts ≠ []) :
    ∃ g, buildPiece? config parts = some g ∧ g.InOrder ∧ g.parts = parts := by
  have hne := numbered_ne_nil h
  unfold buildPiece?
  cases config.strategy with
  | topDown =>
    have hbound : ∀ place ∈ (numbered parts).map Prod.fst, place < parts.length := by
      rw [map_fst_numbered]
      exact fun place hplace ↦ List.mem_range.mp hplace
    have hnumbers := topDown_numbers config.fit _ hne parts.length hbound
    rw [map_fst_numbered] at hnumbers
    have hentries := (topDown_spec config.fit _ hne parts.length).2
    exact ⟨_, by simp only [dif_pos hne]; rfl,
      inOrder_of_places hnumbers.perm_range hnumbers.rising hentries, rfl⟩
  | bottomUp =>
    obtain ⟨t, ht, hperm, hrising⟩ := bottomUp?_places config.fit h
    obtain ⟨t', ht', -, hentries⟩ := bottomUp?_spec config.fit hne parts.length
    obtain rfl := Option.some_inj.mp (ht.symm.trans ht')
    exact ⟨_, by simp only [ht]; rfl, inOrder_of_places hperm hrising hentries, rfl⟩

/-! ### The row of joined trees -/

section Append

variable (method : FitMethod) {a b : Grove α}

/-- The nodes of two joined trees by rising places: those of the first, those of the second moved on
behind them, and their common root. -/
theorem map_place_append (ha : a.tree.Laid) (hb : b.tree.Laid) :
    (a.tree.row ++ b.tree.row.map (shift a.tree.size) ++ [(a.append method b).tree]).map place =
      List.range (a.append method b).tree.size := by
  have hsecond : (b.tree.row.map (shift a.tree.size)).map place =
      (List.range b.tree.size).map (a.tree.size + ·) := by
    rw [← hb.map_place_row, List.map_map, List.map_map]
    exact List.map_congr_left fun t _ ↦ (place_shift _ t).trans (Nat.add_comm _ _)
  have hsize : (a.append method b).tree.size = a.tree.size + b.tree.size + 1 := by
    show a.tree.size + (b.tree.shift a.tree.size).size + 1 = _
    rw [size_shift]
  rw [List.map_append, List.map_append, ha.map_place_row, hsecond, ← List.range_add, hsize,
    List.range_succ]
  rfl

theorem row_append (ha : a.tree.Laid) (hb : b.tree.Laid) :
    (a.append method b).tree.row =
      a.tree.row ++ b.tree.row.map (shift a.tree.size) ++ [(a.append method b).tree] := by
  refine row_eq ?_ (List.pairwise_map.mp ?_)
  · refine (List.perm_append_singleton _ _).trans (List.Perm.cons _ ?_)
    rw [subtrees_shift]
    exact a.tree.row_perm.append (b.tree.row_perm.map _)
  · rw [map_place_append method ha hb]
    exact List.pairwise_lt_range

theorem Grove.InOrder.append (ha : a.InOrder) (hb : b.InOrder) : (a.append method b).InOrder := by
  have hrow := row_append method ha.laid hb.laid
  refine ⟨⟨?_, rising_node_iff.mpr ⟨⟨?_, ?_⟩, ha.laid.rising, hb.laid.rising.shift _⟩⟩, ?_⟩
  · rw [hrow, map_place_append method ha.laid hb.laid]
  · have hplace := ha.laid.place_add_one
    omega
  · have hplace := hb.laid.place_add_one
    rw [place_shift]
    omega
  · have hparts : part? ∘ shift (α := α) a.tree.size = part? := funext (part?_shift a.tree.size)
    rw [hrow, List.filterMap_append, List.filterMap_append, List.filterMap_map, hparts,
      ha.parts_row, hb.parts_row]
    exact List.append_nil _

end Append

/-! ### Workers -/

/-- What stands at a worker after a level: a worker whose number is divisible by twice the stride
takes over the tree that stands a stride on. -/
def fanInLevel (method : FitMethod) (stride : ℕ) (slots : ℕ → Option (Grove α)) (worker : ℕ) :
    Option (Grove α) :=
  if worker % (2 * stride) = 0 then
    match slots worker, slots (worker + stride) with
    | some a, some b => some (a.append method b)
    | own, other => own.or other
  else if worker % (2 * stride) = stride then none
  else slots worker

/-- What stands at the workers after as many levels as given, when each starts with a tree. -/
def fanIn (method : FitMethod) (groves : List (Grove α)) : ℕ → ℕ → Option (Grove α)
  | 0 => fun worker ↦ groves[worker]?
  | level + 1 => fanInLevel method (2 ^ level) (fanIn method groves level)

theorem getElem?_joinNeighbours (method : FitMethod) (groves : List (Grove α)) (i : ℕ) :
    (joinNeighbours method groves)[i]? =
      match groves[2 * i]?, groves[2 * i + 1]? with
      | some a, some b => some (a.append method b)
      | own, other => own.or other := by
  fun_induction joinNeighbours method groves generalizing i with
  | case1 a b rest ih =>
    cases i with
    | zero => rfl
    | succ i => exact ih i
  | case2 rest hshort =>
    rcases rest with _ | ⟨a, _ | ⟨b, rest⟩⟩
    · rfl
    · cases i with
      | zero => rfl
      | succ i => simp
    · exact absurd rfl (hshort a b rest)

theorem length_joinNeighbours (method : FitMethod) (groves : List (Grove α)) :
    (joinNeighbours method groves).length = (groves.length + 1) / 2 := by
  fun_induction joinNeighbours method groves with
  | case1 a b rest ih =>
    simp only [List.length_cons, ih]
    omega
  | case2 rest hshort =>
    rcases rest with _ | ⟨a, _ | ⟨b, rest⟩⟩
    · simp
    · simp
    · exact absurd rfl (hshort a b rest)

/-- After a level, the workers with numbers divisible by the next power of two hold what the rounds
of joining make of the trees, and the other workers have given theirs away. -/
theorem fanIn_eq (method : FitMethod) (groves : List (Grove α)) (level worker : ℕ) :
    fanIn method groves level worker =
      if worker % 2 ^ level = 0 then
        ((joinNeighbours method)^[level] groves)[worker / 2 ^ level]?
      else none := by
  induction level generalizing worker with
  | zero => simp [fanIn, Nat.mod_one]
  | succ level ih =>
    have hpos : 0 < 2 ^ level := Nat.two_pow_pos level
    rw [fanIn, fanInLevel, ih, ih, Function.iterate_succ_apply', pow_succ, Nat.mul_comm _ 2]
    generalize 2 ^ level = stride at hpos
    rcases Decidable.em (worker % (2 * stride) = 0) with hzero | hzero
    · obtain ⟨i, rfl⟩ := Nat.dvd_of_mod_eq_zero hzero
      have hown : 2 * stride * i = stride * (2 * i) := by ring
      have hother : 2 * stride * i + stride = stride * (2 * i + 1) := by ring
      rw [if_pos hzero, if_pos hzero, hother, hown, Nat.mul_mod_right, Nat.mul_mod_right,
        if_pos rfl, if_pos rfl, Nat.mul_div_cancel_left _ hpos, Nat.mul_div_cancel_left _ hpos,
        ← hown, Nat.mul_div_cancel_left _ (by omega), getElem?_joinNeighbours]
    · rw [if_neg hzero, if_neg hzero]
      split_ifs with hstride hmultiple
      · rfl
      · -- a multiple of the stride is one of twice the stride, or lies a stride behind one
        have hmod := Nat.mod_mul (x := worker) (a := stride) (b := 2)
        rw [hmultiple, Nat.zero_add, Nat.mul_comm stride 2] at hmod
        rcases Nat.mod_two_eq_zero_or_one (worker / stride) with heven | hodd
        · rw [heven] at hmod
          exact absurd hmod hzero
        · rw [hodd, Nat.mul_one] at hmod
          exact absurd hmod hstride
      · rfl

/-- Joining all is as many rounds as the number of trees has binary digits, rounded up. -/
theorem joinAll?_eq_rounds (method : FitMethod) (groves : List (Grove α)) :
    joinAll? method groves = ((joinNeighbours method)^[Nat.clog 2 groves.length] groves).head? := by
  fun_induction joinAll? method groves with
  | case1 => simp
  | case2 a => simp
  | case3 a b rest ih =>
    have hlength := length_joinNeighbours method (a :: b :: rest)
    have hclog := Nat.clog_of_two_le (b := 2) (n := (a :: b :: rest).length) Nat.one_lt_two
      (by simp)
    rw [show (a :: b :: rest).length + 2 - 1 = (a :: b :: rest).length + 1 by rfl,
      ← hlength] at hclog
    rw [hclog, Function.iterate_succ_apply]
    exact ih

/-- The first worker ends with the tree that joining makes. -/
theorem joinAll?_eq_fanIn (method : FitMethod) (groves : List (Grove α)) :
    joinAll? method groves = fanIn method groves (Nat.clog 2 groves.length) 0 := by
  rw [joinAll?_eq_rounds, fanIn_eq, Nat.zero_mod, if_pos rfl, Nat.zero_div, List.head?_eq_getElem?]

/-! ### Trees as they are built -/

section Rows

variable {α : Type}

/-- The row of a tree over parts: one node fewer than twice the parts, each standing at its place;
the parts at the leaves in their order; the two children of a node before it and not the same; every
node but the last under exactly one node; and the root last. -/
structure RowOver (parts : List (Part α)) (t : BoxTree α) : Prop where
  length_row : t.row.length = 2 * parts.length - 1
  parts_row : t.row.filterMap part? = parts
  place_row : ∀ (i : ℕ) (s : BoxTree α), t.row[i]? = some s → s.place = i
  children_row : ∀ (i place : ℕ) (box : OrientedBox α) (left right : BoxTree α),
    t.row[i]? = some (node place box left right) →
      left.place < i ∧ right.place < i ∧ left.place ≠ right.place ∧
        t.row[left.place]? = some left ∧ t.row[right.place]? = some right
  parent_row : ∀ i : ℕ, i + 1 < t.row.length →
    ∃! j : ℕ, ∃ parent : BoxTree α, t.row[j]? = some parent ∧ i ∈ parent.children.map place
  root_last : t.row.getLast? = some t

theorem Laid.rowOver {t : BoxTree α} (h : t.Laid) {parts : List (Part α)}
    (hparts : t.row.filterMap part? = parts) (hcount : t.leafCount = parts.length) :
    t.RowOver parts where
  length_row := by
    have hsize := t.size_add_one
    rw [t.length_row]
    omega
  parts_row := hparts
  place_row _ _ hs := h.place_of_getElem? hs
  children_row i place box left right hs := by
    have hplace : place = i := h.place_of_getElem? hs
    rw [← hplace]
    exact h.children_of_node (t.row_perm.mem_iff.mp (List.mem_of_getElem? hs))
  parent_row _ hi := h.existsUnique_parent hi
  root_last := h.getLast?_row

end Rows

theorem build?_rowOver (config : BuildConfig) {parts : List (Part α)} (hne : parts ≠ []) :
    ∃ t, build? config parts = some t ∧ t.RowOver parts := by
  obtain ⟨g, hg, hinorder, hgparts⟩ := build?_induction config
    (fun piece hpiece ↦ buildPiece?_inOrder config hpiece) (fun a b ha hb ↦ ha.append _ hb) hne
  refine ⟨g.tree, hg, hinorder.laid.rowOver (hinorder.parts_row.trans hgparts) ?_⟩
  rcases build?_spec config parts with ⟨hnil, -⟩ | ⟨t, ht, hbuilt⟩
  · exact absurd hnil hne
  · obtain rfl := Option.some_inj.mp (hg.symm.trans ht)
    rw [← length_leaves, ← hbuilt.parts_perm.length_eq, BoxTree.parts, List.length_map]

omit [Scalar α] in
/-- A piece is as long as the parts over the workers, rounded up. -/
theorem pieceSize_add_one (config : BuildConfig) {parts : List (Part α)} (hne : parts ≠ []) :
    pieceSize config parts + 1 =
      (parts.length + pieceCount config parts - 1) / pieceCount config parts := by
  have hpos := List.length_pos_of_ne_nil hne
  have hcount : 0 < pieceCount config parts := by
    refine Nat.lt_min.mpr ⟨Nat.lt_of_lt_of_le Nat.zero_lt_one (Nat.le_max_right _ _), hpos⟩
  rw [pieceSize, ← Nat.add_div_right _ hcount]
  congr 1
  omega

/-- What is built over any shapes in any arithmetic: nothing iff the shapes have no parts, and
otherwise a tree whose row has the parts in their order. The parts are cut into as many pieces as
there are workers, but for the rounding, and the trees over the pieces are joined level by level. -/
theorem row_of_built_tree (config : BuildConfig) (shapes : List (Shape α)) :
    let parts := shapes.flatMap Shape.parts
    let workers := min (max config.threads 1) parts.length
    let length := (parts.length + workers - 1) / workers
    let cut := pieces (pieceSize config parts) parts
    let groves := cut.filterMap (buildPiece? config)
    (build? config parts = none ↔ parts = []) ∧
      (∀ t, build? config parts = some t → t.RowOver parts) ∧
      (∀ w, cut[w]? = if w * length < parts.length then some ((parts.drop (w * length)).take length)
        else none) ∧
      groves.map Grove.parts = cut ∧
      build? config parts =
        (fanIn config.fit groves (Nat.clog 2 groves.length) 0).map Grove.tree := by
  intro parts workers length cut groves
  have hgroves : groves.map Grove.parts = cut :=
    (filterMap_buildPiece? config (fun piece hpiece ↦ buildPiece?_inOrder config hpiece)
      (pieces_ne_nil _ _)).2
  have hfanIn : build? config parts =
      (fanIn config.fit groves (Nat.clog 2 groves.length) 0).map Grove.tree :=
    congrArg (Option.map Grove.tree) (joinAll?_eq_fanIn config.fit groves)
  rcases eq_or_ne parts [] with hnil | hne
  · have hnone : build? config parts = none := by rw [hnil, build?_nil]
    refine ⟨⟨fun _ ↦ hnil, fun _ ↦ hnone⟩, fun t ht ↦ ?_, fun w ↦ ?_, hgroves, hfanIn⟩
    · exact absurd (hnone.symm.trans ht) (Option.some_ne_none t).symm
    · simp [cut, hnil, pieces]
  · obtain ⟨t, ht, hrow⟩ := build?_rowOver config hne
    refine ⟨⟨fun hnone ↦ ?_, fun hnil ↦ absurd hnil hne⟩, fun t' ht' ↦ ?_, fun w ↦ ?_, hgroves,
      hfanIn⟩
    · exact absurd (ht.symm.trans hnone) (Option.some_ne_none t)
    · obtain rfl := Option.some_inj.mp (ht.symm.trans ht')
      exact hrow
    · have hlength : pieceSize config parts + 1 = length := pieceSize_add_one config hne
      rw [getElem?_pieces, hlength]

end BoxTree

end Collision
