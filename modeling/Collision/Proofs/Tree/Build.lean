import Collision.Tree.Build
import Mathlib.Data.List.Flatten
import Mathlib.Data.List.Nodup
import Mathlib.Data.List.Perm.Basic

/-!
# What a build makes

However a tree is built, its leaves are the parts it was built over, each at a place of its own, and
the box of every node is fitted to the parts below the node. The last is `BoxTree.FittedBy`; it does
not say that a box lies inside the box above it, which is not so.

Splitting, merging and joining are treated one after another: `BoxTree.topDown_spec`,
`BoxTree.bottomUp?_spec` and `BoxTree.joinAll?_induction`. `BoxTree.build?_induction` carries a
property from the pieces to the whole, and `BoxTree.build?_spec` puts everything together.
-/

set_option autoImplicit false
set_option relaxedAutoImplicit false

namespace Collision

/-! ### Lists -/

section Lists

variable {β : Type}

theorem halves_perm {α : Type} [Scalar α] (key : β → α) (members : List β) :
    ((halves key members).1 ++ (halves key members).2).Perm members := by
  unfold halves
  extract_lets mean split sorted
  split
  · rw [List.take_append_drop]
    exact List.mergeSort_perm members _
  · simp only [split, List.partition_eq_filter_filter]
    exact List.filter_append_perm _ members

/-- Taking out a member by putting the last one in its place. -/
theorem removeSwapping_perm {members : List β} {place : ℕ} (h : place < members.length) :
    (members[place] :: removeSwapping place members).Perm members := by
  rcases List.eq_nil_or_concat' members with rfl | ⟨front, last, rfl⟩
  · exact absurd h (Nat.not_lt_zero _)
  · have hcases : place < front.length ∨ place = front.length := by
      rw [List.length_append, List.length_singleton] at h
      omega
    rcases hcases with hlt | rfl
    · have hremoved : removeSwapping place (front ++ [last]) = front.set place last := by
        simp [removeSwapping, List.set_append_left _ _ hlt]
      rw [hremoved, List.getElem_append_left hlt]
      have hset := (List.set_perm_cons_eraseIdx hlt last).cons front[place]
      have herase := (List.getElem_cons_eraseIdx_perm hlt).cons last
      exact ((hset.trans (.swap _ _ _)).trans herase).trans (List.perm_append_singleton _ _).symm
    · have hremoved : removeSwapping front.length (front ++ [last]) = front := by
        simp [removeSwapping]
      rw [hremoved, List.getElem_concat_length rfl]
      exact (List.perm_append_singleton _ _).symm

theorem length_removeSwapping {members : List β} {place : ℕ} (h : place < members.length) :
    (removeSwapping place members).length + 1 = members.length :=
  (removeSwapping_perm h).length_eq

theorem removeSwapping_getElem {members : List β} {i j : ℕ} (hij : i < j)
    (hj : j < members.length) (hi : i < (removeSwapping j members).length) :
    (removeSwapping j members)[i] = members[i] := by
  rcases List.eq_nil_or_concat' members with rfl | ⟨front, last, rfl⟩
  · exact absurd hj (Nat.not_lt_zero _)
  · simp [removeSwapping, Nat.ne_of_gt hij]

/-- Every listed pair is of an earlier and a later member. -/
theorem mem_pairsOf {members : List β} {pair : β × β} (h : pair ∈ pairsOf members) :
    ∃ i j, ∃ (hi : i < members.length) (hj : j < members.length),
      i < j ∧ members[i] = pair.1 ∧ members[j] = pair.2 := by
  induction members with
  | nil => simp [pairsOf] at h
  | cons b rest ih =>
    rcases List.mem_append.mp h with h | h
    · obtain ⟨c, hc, rfl⟩ := List.mem_map.mp h
      obtain ⟨j, hj, rfl⟩ := List.getElem_of_mem hc
      exact ⟨0, j + 1, by simp, by simpa using hj, by omega, rfl, rfl⟩
    · obtain ⟨i, j, hi, hj, hij, hfirst, hsecond⟩ := ih h
      exact ⟨i + 1, j + 1, by simpa using hi, by simpa using hj, by omega, hfirst, hsecond⟩

theorem flatten_pieces (size : ℕ) (members : List β) : (pieces size members).flatten = members := by
  fun_induction pieces size members with
  | case1 => rfl
  | case2 b rest ih => rw [List.flatten_cons, ih, List.cons_append, List.take_append_drop]

theorem pieces_ne_nil (size : ℕ) (members : List β) :
    ∀ piece ∈ pieces size members, piece ≠ [] := by
  fun_induction pieces size members with
  | case1 => simp
  | case2 b rest ih => exact List.forall_mem_cons.mpr ⟨List.cons_ne_nil _ _, ih⟩

end Lists

namespace BoxTree

variable {α : Type}

/-! ### Leaves -/

/-- The places and parts of the leaves from left to right. -/
def entries (t : BoxTree α) : List (ℕ × Part α) := t.leaves.map fun l ↦ (l.place, l.part)

/-- The parts at the leaves from left to right. -/
def parts (t : BoxTree α) : List (Part α) := t.leaves.map TreeLeaf.part

/-- The places of the leaves from left to right. -/
def places (t : BoxTree α) : List ℕ := t.leaves.map TreeLeaf.place

theorem entries_node (place : ℕ) (box : OrientedBox α) (left right : BoxTree α) :
    (node place box left right).entries = left.entries ++ right.entries :=
  List.map_append

theorem parts_node (place : ℕ) (box : OrientedBox α) (left right : BoxTree α) :
    (node place box left right).parts = left.parts ++ right.parts :=
  List.map_append

theorem places_node (place : ℕ) (box : OrientedBox α) (left right : BoxTree α) :
    (node place box left right).places = left.places ++ right.places :=
  List.map_append

theorem map_snd_entries (t : BoxTree α) : t.entries.map Prod.snd = t.parts := List.map_map

theorem map_fst_entries (t : BoxTree α) : t.entries.map Prod.fst = t.places := List.map_map

theorem leaves_shift (distance : ℕ) (t : BoxTree α) :
    (t.shift distance).leaves = t.leaves.map fun l ↦ { l with place := l.place + distance } := by
  induction t with
  | leaf l => rfl
  | node place box left right ihLeft ihRight =>
    simp only [shift, leaves, ihLeft, ihRight, List.map_append]

theorem parts_shift (distance : ℕ) (t : BoxTree α) : (t.shift distance).parts = t.parts := by
  unfold parts
  rw [leaves_shift, List.map_map]
  rfl

theorem places_shift (distance : ℕ) (t : BoxTree α) :
    (t.shift distance).places = t.places.map (· + distance) := by
  unfold places
  rw [leaves_shift, List.map_map, List.map_map]
  rfl

theorem size_shift (distance : ℕ) (t : BoxTree α) : (t.shift distance).size = t.size := by
  induction t with
  | leaf l => rfl
  | node place box left right ihLeft ihRight => simp only [shift, size, ihLeft, ihRight]

theorem length_leaves (t : BoxTree α) : t.leaves.length = t.leafCount := by
  induction t with
  | leaf l => rfl
  | node place box left right ihLeft ihRight =>
    rw [leaves, List.length_append, ihLeft, ihRight, leafCount]

variable [Scalar α]

/-- Every leaf has the box of its part, and the box of every other node is fitted to the parts below
it, in some order. -/
def FittedBy (method : FitMethod) : BoxTree α → Prop
  | leaf l => l.box = l.part.localBox
  | node _ box left right =>
    (∃ order : List (Part α), order.Perm (left.parts ++ right.parts) ∧
      box = fitParts method order) ∧ left.FittedBy method ∧ right.FittedBy method

theorem FittedBy.shift {method : FitMethod} {t : BoxTree α} (h : t.FittedBy method)
    (distance : ℕ) : (t.shift distance).FittedBy method := by
  induction t with
  | leaf l => exact h
  | node place box left right ihLeft ihRight =>
    obtain ⟨hbox, hleft, hright⟩ := h
    refine ⟨?_, ihLeft hleft, ihRight hright⟩
    rw [parts_shift, parts_shift]
    exact hbox

theorem single_fittedBy (method : FitMethod) (place : ℕ) (part : Part α) :
    (single place part).FittedBy method := rfl

/-! ### Splitting -/

theorem topDown_spec (method : FitMethod) (numberedParts : List (ℕ × Part α))
    (h : numberedParts ≠ []) (next : ℕ) :
    (topDown method numberedParts h next).1.FittedBy method ∧
      (topDown method numberedParts h next).1.entries.Perm numberedParts := by
  fun_induction topDown method numberedParts h next with
  | case1 parts h next hone entry =>
    have hlength : parts.length = 1 := by
      have hpos := List.length_pos_of_ne_nil h
      omega
    obtain ⟨only, rfl⟩ := List.length_eq_one_iff.mp hlength
    exact ⟨single_fittedBy _ _ _, .refl _⟩
  | case2 parts h next hmany box split hlength hnil hleft hright left right ihLeft _ ihRight =>
    have hsplit : (split.1 ++ split.2).Perm parts := halves_perm _ _
    have hperm : (left.1.entries ++ right.1.entries).Perm parts :=
      (ihLeft.2.append ihRight.2).trans hsplit
    refine ⟨⟨⟨parts.map Prod.snd, ?_, rfl⟩, ihLeft.1, ihRight.1⟩, ?_⟩
    · rw [← map_snd_entries, ← map_snd_entries, ← List.map_append]
      exact (hperm.map Prod.snd).symm
    · rw [entries_node]
      exact hperm

/-! ### Merging -/

/-- The tree is fitted, and the parts kept with it are those at its leaves. -/
structure Grove.Sound (method : FitMethod) (g : Grove α) : Prop where
  fittedBy : g.tree.FittedBy method
  parts_perm : g.parts.Perm g.tree.parts

theorem Grove.Sound.join {method : FitMethod} {a b : Grove α} (ha : a.Sound method)
    (hb : b.Sound method) (place : ℕ) : (a.join method place b).Sound method where
  fittedBy := ⟨⟨_, ha.parts_perm.append hb.parts_perm, rfl⟩, ha.fittedBy, hb.fittedBy⟩
  parts_perm := by
    show (a.parts ++ b.parts).Perm (node place _ a.tree b.tree).parts
    rw [parts_node]
    exact ha.parts_perm.append hb.parts_perm

theorem nearestPair_spec (groves : List (Grove α)) (h : 2 ≤ groves.length) :
    (nearestPair groves).1 < (nearestPair groves).2 ∧ (nearestPair groves).2 < groves.length := by
  have hfold (pairs : List ((Grove α × ℕ) × (Grove α × ℕ))) (best : Option (α × ℕ × ℕ))
      (hpairs : ∀ pair ∈ pairs, pair.1.2 < pair.2.2 ∧ pair.2.2 < groves.length)
      (hbest : ∀ found, best = some found → found.2.1 < found.2.2 ∧ found.2.2 < groves.length) :
      ∀ found, pairs.foldl nearer best = some found →
        found.2.1 < found.2.2 ∧ found.2.2 < groves.length := by
    induction pairs generalizing best with
    | nil => exact hbest
    | cons pair rest ih =>
      refine ih _ (fun other hother ↦ hpairs other (.tail pair hother)) fun found hfound ↦ ?_
      simp only [nearer] at hfound
      have hpair : ∀ distance : α, some (distance, pair.1.2, pair.2.2) = some found →
          found.2.1 < found.2.2 ∧ found.2.2 < groves.length := by
        intro distance heq
        obtain rfl := Option.some_inj.mp heq
        exact hpairs pair List.mem_cons_self
      split_ifs at hfound
      · exact hpair _ hfound
      · exact hbest found hfound
  have hpairs : ∀ pair ∈ pairsOf groves.zipIdx,
      pair.1.2 < pair.2.2 ∧ pair.2.2 < groves.length := by
    intro pair hpair
    obtain ⟨i, j, hi, hj, hij, hfirst, hsecond⟩ := mem_pairsOf hpair
    rw [← hfirst, ← hsecond, List.getElem_zipIdx, List.getElem_zipIdx]
    rw [List.length_zipIdx] at hj
    simp only
    omega
  unfold nearestPair
  split
  · exact hfold _ none hpairs (by simp) _ (by assumption)
  · exact ⟨Nat.zero_lt_one, h⟩

/-- A merge takes two trees out and puts their common tree at the end. -/
theorem mergeNearest_eq (method : FitMethod) (place : ℕ) {groves : List (Grove α)}
    (h : 2 ≤ groves.length) :
    ∃ a b rest, (a :: b :: rest).Perm groves ∧
      mergeNearest method place groves = rest ++ [a.join method place b] := by
  obtain ⟨hij, hj⟩ := nearestPair_spec groves h
  generalize hpair : nearestPair groves = pair at hij hj
  obtain ⟨i, j⟩ := pair
  simp only at hij hj
  have hi : i < groves.length := Nat.lt_trans hij hj
  have hlengthj := length_removeSwapping hj
  have hi' : i < (removeSwapping j groves).length := by omega
  refine ⟨groves[i], groves[j], removeSwapping i (removeSwapping j groves), ?_, ?_⟩
  · have hsecond := removeSwapping_perm hi'
    rw [removeSwapping_getElem hij hj] at hsecond
    exact (List.Perm.swap _ _ _).trans ((hsecond.cons groves[j]).trans (removeSwapping_perm hj))
  · simp only [mergeNearest, hpair, List.getElem?_eq_getElem hi, List.getElem?_eq_getElem hj]

theorem length_mergeNearest (method : FitMethod) (place : ℕ) {groves : List (Grove α)}
    (h : 2 ≤ groves.length) :
    (mergeNearest method place groves).length + 1 = groves.length := by
  obtain ⟨a, b, rest, hperm, hmerge⟩ := mergeNearest_eq method place h
  rw [hmerge, List.length_append, List.length_singleton, ← hperm.length_eq]
  rfl

theorem mergeNearest_spec {method : FitMethod} (place : ℕ) {groves : List (Grove α)}
    (hgroves : ∀ g ∈ groves, g.Sound method) (h : 2 ≤ groves.length) :
    (∀ g ∈ mergeNearest method place groves, g.Sound method) ∧
      ((mergeNearest method place groves).flatMap fun g ↦ g.tree.entries).Perm
        (groves.flatMap fun g ↦ g.tree.entries) := by
  obtain ⟨a, b, rest, hperm, hmerge⟩ := mergeNearest_eq method place h
  rw [hmerge]
  refine ⟨?_, ?_⟩
  · intro g hg
    rcases List.mem_append.mp hg with hg | hg
    · exact hgroves g (hperm.subset (.tail _ (.tail _ hg)))
    · obtain rfl := List.mem_singleton.mp hg
      have ha : a.Sound method := hgroves a (hperm.subset List.mem_cons_self)
      have hb : b.Sound method := hgroves b (hperm.subset (.tail _ List.mem_cons_self))
      exact ha.join hb place
  · refine List.Perm.trans ?_ (hperm.flatMap_right _)
    simp only [List.flatMap_append, List.flatMap_cons, List.flatMap_nil, List.append_nil,
      Grove.join, entries_node]
    refine List.perm_append_comm.trans ?_
    rw [List.append_assoc]

/-- What every merge keeps holds of the one tree that the merges end with. -/
theorem merges_induction {method : FitMethod} {P : ℕ → List (Grove α) → Prop}
    (hstep : ∀ next groves, 2 ≤ groves.length → P next groves →
      P (next + 1) (mergeNearest method next groves))
    (count next : ℕ) {groves : List (Grove α)} (h : groves.length = count + 1)
    (hgroves : P next groves) :
    ∃ g, merges method count next groves = [g] ∧ P (next + count) [g] := by
  induction count generalizing next groves with
  | zero =>
    obtain ⟨g, rfl⟩ := List.length_eq_one_iff.mp h
    exact ⟨g, rfl, hgroves⟩
  | succ count ih =>
    have hmany : 2 ≤ groves.length := by omega
    have hlength := length_mergeNearest method next hmany
    obtain ⟨g, hg, hholds⟩ := ih (next + 1) (by omega) (hstep next groves hmany hgroves)
    rw [Nat.succ_add_eq_add_succ] at hholds
    exact ⟨g, hg, hholds⟩

theorem merges_spec {method : FitMethod} (count next : ℕ) {groves : List (Grove α)}
    (hgroves : ∀ g ∈ groves, g.Sound method) (h : groves.length = count + 1) :
    ∃ g, merges method count next groves = [g] ∧ g.Sound method ∧
      g.tree.entries.Perm (groves.flatMap fun g ↦ g.tree.entries) := by
  let kept (_ : ℕ) (others : List (Grove α)) : Prop :=
    (∀ g ∈ others, g.Sound method) ∧
      (others.flatMap fun g ↦ g.tree.entries).Perm (groves.flatMap fun g ↦ g.tree.entries)
  have hstep : ∀ next others, 2 ≤ others.length → kept next others →
      kept (next + 1) (mergeNearest method next others) := by
    rintro next others hlength ⟨hsound, hperm⟩
    obtain ⟨hmergesound, hmergeperm⟩ := mergeNearest_spec next hsound hlength
    exact ⟨hmergesound, hmergeperm.trans hperm⟩
  obtain ⟨g, hg, hsound, hperm⟩ := merges_induction hstep count next h ⟨hgroves, .refl _⟩
  rw [List.flatMap_singleton] at hperm
  exact ⟨g, hg, hsound g List.mem_cons_self, hperm⟩

theorem bottomUp?_spec (method : FitMethod) {numberedParts : List (ℕ × Part α)}
    (h : numberedParts ≠ []) (next : ℕ) :
    ∃ t, bottomUp? method numberedParts next = some t ∧ t.FittedBy method ∧
      t.entries.Perm numberedParts := by
  have hpos := List.length_pos_of_ne_nil h
  have hstart : ∀ g ∈ numberedParts.map fun entry ↦ Grove.mk (single entry.1 entry.2) [entry.2],
      g.Sound method := by
    intro g hg
    obtain ⟨entry, -, rfl⟩ := List.mem_map.mp hg
    exact ⟨single_fittedBy _ _ _, .refl _⟩
  obtain ⟨g, hg, hsound, hperm⟩ :=
    merges_spec (numberedParts.length - 1) next hstart (by rw [List.length_map]; omega)
  refine ⟨g.tree, by simp [bottomUp?, hg], hsound.fittedBy, ?_⟩
  have hentries : (numberedParts.map fun entry ↦
      Grove.mk (single entry.1 entry.2) [entry.2]).flatMap (fun g ↦ g.tree.entries) =
        numberedParts := by
    rw [List.flatMap_map]
    exact List.flatMap_singleton' numberedParts
  rw [hentries] at hperm
  exact hperm

/-! ### Joining -/

/-- The tree is fitted, the parts kept with it are those at its leaves, and its leaves have places
of their own, which are numbers of its nodes. -/
structure Grove.Numbered (method : FitMethod) (g : Grove α) : Prop extends g.Sound method where
  places_nodup : g.tree.places.Nodup
  places_lt : ∀ place ∈ g.tree.places, place < g.tree.size

omit [Scalar α] in
theorem map_fst_numbered (parts : List (Part α)) :
    (numbered parts).map Prod.fst = List.range parts.length := by
  unfold numbered
  rw [List.map_map, List.range_eq_range', ← List.zipIdx_map_snd 0 parts]
  rfl

omit [Scalar α] in
theorem map_snd_numbered (parts : List (Part α)) : (numbered parts).map Prod.snd = parts := by
  unfold numbered
  rw [List.map_map]
  exact List.zipIdx_map_fst 0 parts

omit [Scalar α] in
theorem numbered_ne_nil {parts : List (Part α)} (h : parts ≠ []) : numbered parts ≠ [] := by
  intro hnil
  have hparts := map_snd_numbered parts
  rw [hnil] at hparts
  exact h hparts.symm

/-- A tree over numbered parts has them at their places. -/
theorem numbered_of_entries {method : FitMethod} {t : BoxTree α} {parts : List (Part α)}
    (hfitted : t.FittedBy method) (hentries : t.entries.Perm (numbered parts)) :
    (Grove.mk t parts).Numbered method := by
  have hparts : t.parts.Perm parts := by
    have hmapped := hentries.map Prod.snd
    rw [map_snd_numbered] at hmapped
    exact map_snd_entries t ▸ hmapped
  have hplaces : t.places.Perm (List.range parts.length) := by
    rw [← map_fst_entries, ← map_fst_numbered]
    exact hentries.map Prod.fst
  refine ⟨⟨hfitted, hparts.symm⟩, hplaces.nodup_iff.mpr List.nodup_range, ?_⟩
  intro place hplace
  have hlt : place < parts.length := List.mem_range.mp (hplaces.mem_iff.mp hplace)
  have hcount : t.leafCount = parts.length := by
    rw [← length_leaves, ← hparts.length_eq, BoxTree.parts, List.length_map]
  have hsize := t.size_add_one
  show place < t.size
  omega

theorem buildPiece?_spec (config : BuildConfig) {parts : List (Part α)} (h : parts ≠ []) :
    ∃ g, buildPiece? config parts = some g ∧ g.Numbered config.fit ∧ g.parts = parts := by
  have hne := numbered_ne_nil h
  unfold buildPiece?
  cases config.strategy with
  | topDown =>
    obtain ⟨hfitted, hentries⟩ := topDown_spec config.fit (numbered parts) hne parts.length
    exact ⟨_, by simp only [dif_pos hne]; rfl, numbered_of_entries hfitted hentries, rfl⟩
  | bottomUp =>
    obtain ⟨t, ht, hfitted, hentries⟩ := bottomUp?_spec config.fit hne parts.length
    exact ⟨_, by simp only [ht]; rfl, numbered_of_entries hfitted hentries, rfl⟩

theorem Grove.Numbered.append {method : FitMethod} {a b : Grove α} (ha : a.Numbered method)
    (hb : b.Numbered method) : (a.append method b).Numbered method where
  toSound := by
    refine ha.toSound.join ⟨hb.fittedBy.shift _, ?_⟩ _
    rw [parts_shift]
    exact hb.parts_perm
  places_nodup := by
    show (node _ _ a.tree (b.tree.shift a.tree.size)).places.Nodup
    rw [places_node, places_shift]
    refine List.Nodup.append ha.places_nodup ?_ ?_
    · exact hb.places_nodup.map fun m n h ↦ Nat.add_right_cancel h
    · intro place hfirst hsecond
      have hlt := ha.places_lt place hfirst
      obtain ⟨other, -, rfl⟩ := List.mem_map.mp hsecond
      omega
  places_lt := by
    show ∀ place ∈ (node _ _ a.tree (b.tree.shift a.tree.size)).places,
      place < a.tree.size + (b.tree.shift a.tree.size).size + 1
    rw [places_node, places_shift, size_shift]
    intro place hplace
    rcases List.mem_append.mp hplace with hplace | hplace
    · have hlt := ha.places_lt place hplace
      omega
    · obtain ⟨other, hother, rfl⟩ := List.mem_map.mp hplace
      have hlt := hb.places_lt other hother
      omega

section Rounds

variable {method : FitMethod} {P : Grove α → Prop}
  (happend : ∀ a b : Grove α, P a → P b → P (a.append method b))

include happend

/-- What holds of trees, and of two joined trees if it holds of both, holds after a round. -/
theorem forall_joinNeighbours {groves : List (Grove α)} (h : ∀ g ∈ groves, P g) :
    ∀ g ∈ joinNeighbours method groves, P g := by
  fun_induction joinNeighbours method groves with
  | case1 a b rest ih =>
    obtain ⟨ha, hrest⟩ := List.forall_mem_cons.mp h
    obtain ⟨hb, hrest⟩ := List.forall_mem_cons.mp hrest
    exact List.forall_mem_cons.mpr ⟨happend a b ha hb, ih hrest⟩
  | case2 rest hshort => exact h

omit happend in
theorem flatMap_parts_joinNeighbours (groves : List (Grove α)) :
    (joinNeighbours method groves).flatMap Grove.parts = groves.flatMap Grove.parts := by
  fun_induction joinNeighbours method groves with
  | case1 a b rest ih =>
    rw [List.flatMap_cons, ih, List.flatMap_cons, List.flatMap_cons, ← List.append_assoc]
    rfl
  | case2 rest hshort => rfl

/-- The rounds end with one tree, over all parts. -/
theorem joinAll?_induction {groves : List (Grove α)} (h : ∀ g ∈ groves, P g) (hne : groves ≠ []) :
    ∃ g, joinAll? method groves = some g ∧ P g ∧ g.parts = groves.flatMap Grove.parts := by
  fun_induction joinAll? method groves with
  | case1 => exact absurd rfl hne
  | case2 a => exact ⟨a, rfl, h a List.mem_cons_self, by simp⟩
  | case3 a b rest ih =>
    obtain ⟨g, hg, hholds, hparts⟩ :=
      ih (forall_joinNeighbours happend h) (List.cons_ne_nil _ _)
    exact ⟨g, hg, hholds, hparts.trans (flatMap_parts_joinNeighbours (a :: b :: rest))⟩

end Rounds

/-- The pieces of a list of parts, each with the tree built over it. -/
theorem filterMap_buildPiece? (config : BuildConfig) {P : Grove α → Prop}
    (hpiece : ∀ piece : List (Part α), piece ≠ [] →
      ∃ g, buildPiece? config piece = some g ∧ P g ∧ g.parts = piece)
    {rest : List (List (Part α))} (hrest : ∀ piece ∈ rest, piece ≠ []) :
    (∀ g ∈ rest.filterMap (buildPiece? config), P g) ∧
      (rest.filterMap (buildPiece? config)).map Grove.parts = rest := by
  induction rest with
  | nil => simp
  | cons piece rest ih =>
    obtain ⟨hhead, hrest⟩ := List.forall_mem_cons.mp hrest
    obtain ⟨hholds, hparts⟩ := ih hrest
    obtain ⟨g, hg, hgholds, hgparts⟩ := hpiece piece hhead
    rw [List.filterMap_cons_some hg]
    exact ⟨List.forall_mem_cons.mpr ⟨hgholds, hholds⟩, by rw [List.map_cons, hgparts, hparts]⟩

/-- What holds of the tree over every piece, and of two joined trees if it holds of both, holds of
the tree that is built. -/
theorem build?_induction (config : BuildConfig) {P : Grove α → Prop}
    (hpiece : ∀ piece : List (Part α), piece ≠ [] →
      ∃ g, buildPiece? config piece = some g ∧ P g ∧ g.parts = piece)
    (happend : ∀ a b : Grove α, P a → P b → P (a.append config.fit b)) {parts : List (Part α)}
    (hne : parts ≠ []) :
    ∃ g, build? config parts = some g.tree ∧ P g ∧ g.parts = parts := by
  obtain ⟨hholds, hparts⟩ :=
    filterMap_buildPiece? config hpiece (pieces_ne_nil (pieceSize config parts) parts)
  have hflat : ((pieces (pieceSize config parts) parts).filterMap (buildPiece? config)).flatMap
      Grove.parts = parts := by
    rw [List.flatMap_def, hparts, flatten_pieces]
  have hgroves : (pieces (pieceSize config parts) parts).filterMap (buildPiece? config) ≠ [] := by
    intro hnil
    rw [hnil] at hflat
    exact hne hflat.symm
  obtain ⟨g, hg, hgholds, hgparts⟩ := joinAll?_induction happend hholds hgroves
  exact ⟨g, by simp [build?, hg], hgholds, hgparts.trans hflat⟩

/-- A tree over parts: every box is fitted to what is below it, the leaves are the parts, and no two
leaves have the same place. -/
structure BuiltOver (method : FitMethod) (parts : List (Part α)) (t : BoxTree α) : Prop where
  fittedBy : t.FittedBy method
  parts_perm : t.parts.Perm parts
  places_nodup : t.places.Nodup

@[simp]
theorem build?_nil (config : BuildConfig) : build? config ([] : List (Part α)) = none := by
  simp [build?, pieces, joinAll?]

/-- Over no parts nothing is built, and over any others a tree. -/
theorem build?_spec (config : BuildConfig) (parts : List (Part α)) :
    (parts = [] ∧ build? config parts = none) ∨
      ∃ t, build? config parts = some t ∧ t.BuiltOver config.fit parts := by
  rcases eq_or_ne parts [] with rfl | hne
  · exact .inl ⟨rfl, build?_nil config⟩
  · right
    obtain ⟨g, hg, hnumbered, hparts⟩ := build?_induction config
      (fun piece hpiece ↦ buildPiece?_spec config hpiece) (fun a b ha hb ↦ ha.append hb) hne
    refine ⟨g.tree, hg, hnumbered.fittedBy, ?_, hnumbered.places_nodup⟩
    rw [← hparts]
    exact hnumbered.parts_perm.symm

end BoxTree

end Collision
