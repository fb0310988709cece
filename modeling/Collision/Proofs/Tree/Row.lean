import Collision.Proofs.Tree.Build
import Mathlib.Data.List.Range

/-!
# The row of a tree

What the row of a tree shows when the places of the nodes are their numbers in it and children stand
before their parent (`BoxTree.Laid`). The root is then the last of the row, the two children of a
node are found by their places, and every other node than the root is the child of exactly one node
(`BoxTree.Laid.existsUnique_parent`): the nodes below the root are the children of all nodes, each
listed once (`BoxTree.subtrees_perm_children`).
-/

set_option autoImplicit false
set_option relaxedAutoImplicit false

namespace Collision

/-- In a list without repeats that is put together from pieces, a member has one piece. -/
theorem eq_of_mem_flatMap {β γ : Type} {f : β → List γ} {members : List β}
    (h : (members.flatMap f).Nodup) {a b : β} (ha : a ∈ members) (hb : b ∈ members) {c : γ}
    (hca : c ∈ f a) (hcb : c ∈ f b) : a = b := by
  have hsymm : Std.Symm (Function.onFun List.Disjoint f) := ⟨fun _ _ hab _ hb ha ↦ hab ha hb⟩
  by_contra hne
  exact (List.nodup_flatMap.mp h).2.forall ha hb hne hca hcb

namespace BoxTree

variable {α : Type}

/-- The two trees under the root, unless the root is a leaf. -/
def children : BoxTree α → List (BoxTree α)
  | leaf _ => []
  | node _ _ left right => [left, right]

/-- The part at the root, if the root is a leaf. -/
def part? : BoxTree α → Option (Part α)
  | leaf l => some l.part
  | node .. => none

/-! ### All nodes -/

theorem self_mem_subtrees (t : BoxTree α) : t ∈ t.subtrees := by
  cases t with
  | leaf l => exact List.mem_singleton_self _
  | node place box left right => exact List.mem_cons_self

theorem subtrees_sublist {s t : BoxTree α} (h : s ∈ t.subtrees) :
    s.subtrees.Sublist t.subtrees := by
  induction t with
  | leaf l =>
    obtain rfl := List.mem_singleton.mp h
    exact .refl _
  | node place box left right ihLeft ihRight =>
    rcases List.mem_cons.mp h with rfl | h
    · exact .refl _
    · rcases List.mem_append.mp h with h | h
      · exact ((ihLeft h).trans (List.sublist_append_left _ _)).cons _
      · exact ((ihRight h).trans (List.sublist_append_right _ _)).cons _

/-- The children of a node, as a sublist of what the node lists below itself. -/
theorem children_sublist (t : BoxTree α) : (t :: t.children).Sublist t.subtrees := by
  cases t with
  | leaf l => exact .refl _
  | node place box left right =>
    have hleft := List.singleton_sublist.mpr left.self_mem_subtrees
    have hright := List.singleton_sublist.mpr right.self_mem_subtrees
    exact (hleft.append hright).cons_cons _

theorem child_mem_subtrees {s t child : BoxTree α} (hs : s ∈ t.subtrees)
    (hchild : child ∈ s.children) : child ∈ t.subtrees :=
  (subtrees_sublist hs).subset (s.children_sublist.subset (.tail _ hchild))

/-- The places of all nodes, that of a parent before those of its children. -/
def nodePlaces (t : BoxTree α) : List ℕ := t.subtrees.map place

theorem nodePlaces_node (p : ℕ) (box : OrientedBox α) (left right : BoxTree α) :
    (node p box left right).nodePlaces = p :: (left.nodePlaces ++ right.nodePlaces) := by
  simp only [nodePlaces, subtrees, List.map_cons, List.map_append, place]

theorem place_mem_nodePlaces {s t : BoxTree α} (h : s ∈ t.subtrees) : s.place ∈ t.nodePlaces :=
  List.mem_map_of_mem h

theorem length_nodePlaces (t : BoxTree α) : t.nodePlaces.length = t.size := by
  rw [nodePlaces, List.length_map, length_subtrees]

/-- The nodes are the root and the children of all nodes. -/
theorem subtrees_perm_children (t : BoxTree α) :
    t.subtrees.Perm (t :: t.subtrees.flatMap children) := by
  induction t with
  | leaf l => exact .refl _
  | node place box left right ihLeft ihRight =>
    refine List.Perm.cons _ ((ihLeft.append ihRight).trans ?_)
    show (left :: left.subtrees.flatMap children ++ right :: right.subtrees.flatMap children).Perm
      (left :: right :: (left.subtrees ++ right.subtrees).flatMap children)
    rw [List.flatMap_append]
    exact List.perm_middle.cons left

/-! ### The row -/

theorem row_perm (t : BoxTree α) : t.row.Perm t.subtrees := List.mergeSort_perm _ _

theorem length_row (t : BoxTree α) : t.row.length = t.size := by
  rw [t.row_perm.length_eq, length_subtrees]

theorem pairwise_row (t : BoxTree α) : t.row.Pairwise fun a b ↦ a.place ≤ b.place := by
  have hsorted : t.row.Pairwise fun a b ↦ decide (a.place ≤ b.place) = true := by
    refine List.pairwise_mergeSort (fun a b c hab hbc ↦ ?_) (fun a b ↦ ?_) t.subtrees
    · rw [decide_eq_true_eq] at *
      exact Nat.le_trans hab hbc
    · rw [Bool.or_eq_true, decide_eq_true_eq, decide_eq_true_eq]
      exact Nat.le_total _ _
  exact hsorted.imp fun hab ↦ of_decide_eq_true hab

/-- A list of the nodes by rising places is the row. -/
theorem row_eq {t : BoxTree α} {nodes : List (BoxTree α)} (hperm : nodes.Perm t.subtrees)
    (hrising : nodes.Pairwise fun a b ↦ a.place < b.place) : t.row = nodes := by
  refine (t.row_perm.trans hperm.symm).eq_of_pairwise ?_ t.pairwise_row
    (hrising.imp fun hab ↦ Nat.le_of_lt hab)
  intro a b ha hb hab hba
  have hnodup : (nodes.map place).Nodup :=
    List.pairwise_map.mpr (hrising.imp fun hlt ↦ Nat.ne_of_lt hlt)
  have ha' : a ∈ nodes := hperm.mem_iff.mpr (t.row_perm.mem_iff.mp ha)
  exact List.inj_on_of_nodup_map hnodup ha' hb (Nat.le_antisymm hab hba)

/-! ### Children before their parent -/

/-- Children have smaller places than their parent. -/
def Rising (t : BoxTree α) : Prop := ∀ s ∈ t.subtrees, ∀ child ∈ s.children, child.place < s.place

theorem rising_leaf (l : TreeLeaf α) : (leaf l).Rising := by
  intro s hs child hchild
  obtain rfl := List.mem_singleton.mp hs
  exact absurd hchild List.not_mem_nil

theorem rising_node_iff {p : ℕ} {box : OrientedBox α} {left right : BoxTree α} :
    (node p box left right).Rising ↔
      (left.place < p ∧ right.place < p) ∧ left.Rising ∧ right.Rising := by
  simp only [Rising, subtrees, List.forall_mem_cons, List.forall_mem_append, children, place,
    List.not_mem_nil, false_implies, implies_true, and_true]

/-- No node stands behind the root. -/
theorem Rising.place_le {t : BoxTree α} (h : t.Rising) {s : BoxTree α} (hs : s ∈ t.subtrees) :
    s.place ≤ t.place := by
  induction t with
  | leaf l =>
    obtain rfl := List.mem_singleton.mp hs
    exact Nat.le_refl _
  | node p box left right ihLeft ihRight =>
    obtain ⟨⟨hleft, hright⟩, hrisingLeft, hrisingRight⟩ := rising_node_iff.mp h
    rcases List.mem_cons.mp hs with rfl | hs
    · exact Nat.le_refl _
    · rcases List.mem_append.mp hs with hs | hs
      · exact Nat.le_trans (ihLeft hrisingLeft hs) (Nat.le_of_lt hleft)
      · exact Nat.le_trans (ihRight hrisingRight hs) (Nat.le_of_lt hright)

/-! ### Moved places -/

theorem subtrees_shift (distance : ℕ) (t : BoxTree α) :
    (t.shift distance).subtrees = t.subtrees.map (shift distance) := by
  induction t with
  | leaf l => rfl
  | node p box left right ihLeft ihRight =>
    simp only [shift, subtrees, ihLeft, ihRight, List.map_cons, List.map_append]

theorem place_shift (distance : ℕ) (t : BoxTree α) :
    (t.shift distance).place = t.place + distance := by
  cases t <;> rfl

theorem part?_shift (distance : ℕ) (t : BoxTree α) : (t.shift distance).part? = t.part? := by
  cases t <;> rfl

theorem Rising.shift {t : BoxTree α} (h : t.Rising) (distance : ℕ) : (t.shift distance).Rising := by
  induction t with
  | leaf l => exact rising_leaf _
  | node p box left right ihLeft ihRight =>
    obtain ⟨⟨hleft, hright⟩, hrisingLeft, hrisingRight⟩ := rising_node_iff.mp h
    refine rising_node_iff.mpr ⟨?_, ihLeft hrisingLeft, ihRight hrisingRight⟩
    rw [place_shift, place_shift]
    omega

/-! ### Nodes at their places -/

/-- Every node stands in the row at its place, behind its children. -/
structure Laid (t : BoxTree α) : Prop where
  map_place_row : t.row.map place = List.range t.size
  rising : t.Rising

/-- A tree whose places are the numbers below some count is laid; the count is its size. -/
theorem laid_of_places {t : BoxTree α} {count : ℕ} (hplaces : t.nodePlaces.Perm (List.range count))
    (hrising : t.Rising) : t.Laid where
  map_place_row := by
    have hcount : t.size = count := by
      rw [← length_nodePlaces, hplaces.length_eq, List.length_range]
    rw [hcount]
    refine ((t.row_perm.map place).trans hplaces).eq_of_pairwise
      (fun a b _ _ hab hba ↦ Nat.le_antisymm hab hba) ?_ ?_
    · exact List.pairwise_map.mpr t.pairwise_row
    · exact List.pairwise_lt_range.imp fun hab ↦ Nat.le_of_lt hab
  rising := hrising

namespace Laid

variable {t : BoxTree α}

theorem pairwise_row_lt (h : t.Laid) : t.row.Pairwise fun a b ↦ a.place < b.place := by
  refine List.pairwise_map.mp ?_
  rw [h.map_place_row]
  exact List.pairwise_lt_range

theorem nodup_nodePlaces (h : t.Laid) : t.nodePlaces.Nodup := by
  refine (t.row_perm.map place).nodup_iff.mp ?_
  rw [h.map_place_row]
  exact List.nodup_range

/-- A node has the place at which it stands. -/
theorem place_of_getElem? (h : t.Laid) {i : ℕ} {s : BoxTree α} (hs : t.row[i]? = some s) :
    s.place = i := by
  have hplace : (t.row.map place)[i]? = some s.place := by rw [List.getElem?_map, hs, Option.map]
  rw [h.map_place_row] at hplace
  obtain ⟨hi, heq⟩ := List.getElem?_eq_some_iff.mp hplace
  rw [← heq, List.getElem_range]

/-- A node stands at its place. -/
theorem getElem?_place (h : t.Laid) {s : BoxTree α} (hs : s ∈ t.subtrees) :
    t.row[s.place]? = some s := by
  obtain ⟨i, hi⟩ := List.getElem?_of_mem (t.row_perm.mem_iff.mpr hs)
  rw [h.place_of_getElem? hi]
  exact hi

/-- The root has the largest place. -/
theorem place_add_one (h : t.Laid) : t.place + 1 = t.size := by
  have hpos := t.size_pos
  have hroot : t.place ∈ t.row.map place :=
    List.mem_map_of_mem (t.row_perm.mem_iff.mpr t.self_mem_subtrees)
  have hlast : t.size - 1 ∈ t.row.map place := by
    rw [h.map_place_row, List.mem_range]
    omega
  obtain ⟨s, hs, hplace⟩ := List.mem_map.mp hlast
  have hle := h.rising.place_le (t.row_perm.mem_iff.mp hs)
  rw [h.map_place_row, List.mem_range] at hroot
  omega

/-- The root is the last of the row. -/
theorem getLast?_row (h : t.Laid) : t.row.getLast? = some t := by
  have hplace := h.place_add_one
  rw [List.getLast?_eq_getElem?, length_row, show t.size - 1 = t.place by omega]
  exact h.getElem?_place t.self_mem_subtrees

/-- The children of a node are two different nodes, before it in the row. -/
theorem children_of_node (h : t.Laid) {p : ℕ} {box : OrientedBox α} {left right : BoxTree α}
    (hs : node p box left right ∈ t.subtrees) :
    left.place < p ∧ right.place < p ∧ left.place ≠ right.place ∧
      t.row[left.place]? = some left ∧ t.row[right.place]? = some right := by
  have hleft : left ∈ (node p box left right).children := List.mem_cons_self
  have hright : right ∈ (node p box left right).children :=
    List.mem_cons_of_mem _ List.mem_cons_self
  refine ⟨h.rising _ hs left hleft, h.rising _ hs right hright, ?_,
    h.getElem?_place (child_mem_subtrees hs hleft), h.getElem?_place (child_mem_subtrees hs hright)⟩
  have hnodup : ([node p box left right, left, right].map place).Nodup :=
    h.nodup_nodePlaces.sublist (((children_sublist _).trans (subtrees_sublist hs)).map place)
  simp only [List.map_cons, List.map_nil, List.nodup_cons, List.mem_cons, List.not_mem_nil,
    or_false] at hnodup
  exact hnodup.2.1

/-- Every node but the last is the child of exactly one node. -/
theorem existsUnique_parent (h : t.Laid) {i : ℕ} (hi : i + 1 < t.row.length) :
    ∃! j : ℕ, ∃ parent : BoxTree α, t.row[j]? = some parent ∧ i ∈ parent.children.map place := by
  have hperm := t.subtrees_perm_children.map place
  have hnodup := hperm.nodup_iff.mp h.nodup_nodePlaces
  rw [List.map_cons, List.nodup_cons, List.map_flatMap] at hnodup
  have hroot := h.place_add_one
  rw [length_row] at hi
  have hmem : i ∈ t.subtrees.flatMap fun s ↦ s.children.map place := by
    have hplace : i ∈ t.subtrees.map place := by
      rw [← (t.row_perm.map place).mem_iff, h.map_place_row, List.mem_range]
      omega
    rw [hperm.mem_iff, List.map_cons, List.map_flatMap] at hplace
    exact (List.mem_cons.mp hplace).resolve_left (by omega)
  obtain ⟨parent, hparent, hchild⟩ := List.mem_flatMap.mp hmem
  refine ⟨parent.place, ⟨parent, h.getElem?_place hparent, hchild⟩, ?_⟩
  rintro j ⟨other, hother, hotherchild⟩
  have hotherplace := h.place_of_getElem? hother
  have hothermem := t.row_perm.mem_iff.mp (List.mem_of_getElem? hother)
  rw [← hotherplace]
  exact congrArg place (eq_of_mem_flatMap hnodup.2 hothermem hparent hotherchild hchild)

end Laid

/-! ### Leaves in the row -/

/-- The place and the part at the root, if the root is a leaf. -/
def numberedPart? : BoxTree α → Option (ℕ × Part α)
  | leaf l => some (l.place, l.part)
  | node .. => none

theorem place_of_numberedPart? {t : BoxTree α} {entry : ℕ × Part α}
    (h : t.numberedPart? = some entry) : entry.1 = t.place := by
  cases t with
  | leaf l =>
    obtain rfl := Option.some_inj.mp h
    rfl
  | node p box left right => exact absurd h (Option.some_ne_none entry).symm

theorem filterMap_numberedPart?_subtrees (t : BoxTree α) :
    t.subtrees.filterMap numberedPart? = t.entries := by
  induction t with
  | leaf l => rfl
  | node p box left right ihLeft ihRight =>
    rw [subtrees, List.filterMap_cons_none rfl, List.filterMap_append, ihLeft, ihRight,
      entries_node]

theorem map_snd_filterMap_numberedPart? (nodes : List (BoxTree α)) :
    (nodes.filterMap numberedPart?).map Prod.snd = nodes.filterMap part? := by
  rw [List.map_filterMap]
  refine List.filterMap_congr fun t _ ↦ ?_
  cases t <;> rfl

/-- A laid tree over numbered parts has them in its row in their order. -/
theorem Laid.filterMap_part?_row {t : BoxTree α} (h : t.Laid) {parts : List (Part α)}
    (hentries : t.entries.Perm (numbered parts)) : t.row.filterMap part? = parts := by
  have hperm : (t.row.filterMap numberedPart?).Perm (numbered parts) := by
    rw [← filterMap_numberedPart?_subtrees] at hentries
    exact (t.row_perm.filterMap numberedPart?).trans hentries
  have hrising : (t.row.filterMap numberedPart?).Pairwise fun a b ↦ a.1 < b.1 := by
    refine List.pairwise_filterMap.mpr (h.pairwise_row_lt.imp fun {a b} hab e he f hf ↦ ?_)
    rwa [place_of_numberedPart? he, place_of_numberedPart? hf]
  have hnumbered : (numbered parts).Pairwise fun a b ↦ a.1 < b.1 := by
    have hplaces : ((numbered parts).map Prod.fst).Pairwise fun i j ↦ i < j := by
      rw [map_fst_numbered]
      exact List.pairwise_lt_range
    exact List.pairwise_map.mp hplaces
  have hrow : t.row.filterMap numberedPart? = numbered parts :=
    hperm.eq_of_pairwise (fun a b _ _ hab hba ↦ absurd hab (Nat.lt_asymm hba)) hrising hnumbered
  rw [← map_snd_filterMap_numberedPart?, hrow, map_snd_numbered]

end BoxTree

end Collision
