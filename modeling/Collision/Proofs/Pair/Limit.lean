import Collision.Geom
import Collision.Proofs.Scalar.Sorting
import Collision.Proofs.Tree.Overlap

/-!
# Contacts cut to their number

`Contacts.limit` cuts a list of contacts to a number of them. `Contacts.Deepest` says what it keeps:
no contact that is dropped is deeper than one that is kept, and the kept contacts of one depth are
the first ones of that depth, in their order. This holds in any arithmetic, for depths that are equal
and for depths that are no numbers.

The contacts of two geoms are cut twice, first those of every pair of leaves and then all of them.
A list that is short enough is not even sorted, so the second cut sees lists in different orders.
Still, cutting the parts first changes nothing (`Contacts.limit_flatMap_limit`), because a list that
is too long either is still too long after that, and is sorted as a whole, or keeps the contacts of
one part only, which are sorted (`Contacts.flatMap_limit_sorted`).

* `Contacts.limit_in_stages` puts this together with the walk over two geoms.
-/

set_option autoImplicit false
set_option relaxedAutoImplicit false

namespace Collision

namespace Contacts

variable {α : Type} [Scalar α]

/-! ### What is kept -/

/-- The contacts of one depth. -/
def withDepth (depth : α) (contacts : Contacts α) : Contacts α :=
  Scalar.withKey Contact.depth depth contacts

/-- The kept contacts are the deepest of some contacts, as many as asked for. -/
structure Deepest (count : ℕ) (contacts kept : Contacts α) : Prop where
  length_eq : kept.length = min count contacts.length
  /-- What is dropped is not deeper than what is kept. -/
  exists_dropped : ∃ dropped, (kept ++ dropped).Perm contacts ∧
    ∀ c ∈ kept, ∀ d ∈ dropped, Scalar.totalLe d.depth c.depth = true
  /-- Of several contacts of one depth the first ones are kept, in their order. -/
  withDepth_prefix : ∀ depth, withDepth depth kept <+: withDepth depth contacts

/-- The contacts by falling depth. -/
def sorted (contacts : Contacts α) : Contacts α := Scalar.sortDescending Contact.depth contacts

/-- The deepest contacts by falling depth, whether there are too many or not. -/
def top (count : ℕ) (contacts : Contacts α) : Contacts α := contacts.sorted.take count

theorem limit_of_le {count : ℕ} {contacts : Contacts α} (h : contacts.length ≤ count) :
    contacts.limit count = contacts := if_pos h

theorem limit_of_lt {count : ℕ} {contacts : Contacts α} (h : count < contacts.length) :
    contacts.limit count = contacts.top count := if_neg (Nat.not_le.mpr h)

theorem length_sorted (contacts : Contacts α) : contacts.sorted.length = contacts.length :=
  (Scalar.sortDescending_perm Contact.depth contacts).length_eq

theorem top_deepest (count : ℕ) (contacts : Contacts α) :
    Deepest count contacts (contacts.top count) where
  length_eq := by rw [top, List.length_take, length_sorted]
  exists_dropped := by
    have hsplit : contacts.top count ++ contacts.sorted.drop count = contacts.sorted :=
      List.take_append_drop count contacts.sorted
    have hfalling := Scalar.sortDescending_falling Contact.depth contacts
    change Scalar.Falling _ contacts.sorted at hfalling
    rw [← hsplit] at hfalling
    refine ⟨contacts.sorted.drop count, ?_, (List.pairwise_append.mp hfalling).2.2⟩
    rw [hsplit]
    exact Scalar.sortDescending_perm Contact.depth contacts
  withDepth_prefix depth := by
    have hprefix : withDepth depth (contacts.top count) <+: withDepth depth contacts.sorted :=
      (List.take_prefix count contacts.sorted).filter _
    rwa [withDepth, withDepth, sorted, Scalar.withKey_sortDescending] at hprefix

theorem limit_deepest (count : ℕ) (contacts : Contacts α) :
    Deepest count contacts (contacts.limit count) := by
  rcases le_or_gt contacts.length count with hle | hlt
  · rw [limit_of_le hle]
    exact ⟨(Nat.min_eq_right hle).symm,
      ⟨[], by rw [List.append_nil], fun c _ d hd ↦ nomatch hd⟩, fun depth ↦ List.prefix_rfl⟩
  · rw [limit_of_lt hlt]
    exact top_deepest count contacts

/-! ### Cutting the parts first -/

theorem sorted_top (count : ℕ) (contacts : Contacts α) :
    (contacts.top count).sorted = contacts.top count :=
  Scalar.sortDescending_of_falling
    ((Scalar.sortDescending_falling Contact.depth contacts).take count)

theorem top_top (count : ℕ) (contacts : Contacts α) :
    (contacts.top count).top count = contacts.top count := by
  rw [top, sorted_top, top, List.take_take, Nat.min_self]

theorem top_limit (count : ℕ) (contacts : Contacts α) :
    (contacts.limit count).top count = contacts.top count := by
  rcases le_or_gt contacts.length count with hle | hlt
  · rw [limit_of_le hle]
  · rw [limit_of_lt hlt]
    exact top_top count contacts

theorem top_append (count : ℕ) (contacts others : Contacts α) :
    top count (contacts ++ others) = top count (contacts.top count ++ others.top count) :=
  Scalar.take_sortDescending_append Contact.depth count contacts others

/-- The deepest contacts of all parts are found among the deepest contacts of each part. -/
theorem top_flatMap_limit (count : ℕ) (lists : List (Contacts α)) :
    top count (lists.flatMap (limit count)) = top count lists.flatten := by
  induction lists with
  | nil => rfl
  | cons contacts rest ih =>
    rw [List.flatMap_cons, List.flatten_cons, top_append, top_limit, ih, ← top_append]

/-- Where cutting the parts leaves few contacts of many, those that are left are sorted: they are
all of one part that was too long. -/
theorem flatMap_limit_sorted {count : ℕ} {lists : List (Contacts α)}
    (hmany : count < lists.flatten.length)
    (hfew : (lists.flatMap (limit count)).length ≤ count) :
    sorted (lists.flatMap (limit count)) = lists.flatMap (limit count) := by
  have hlong : ∃ contacts ∈ lists, count < contacts.length := by
    by_contra hshort
    push Not at hshort
    have hsame : lists.flatMap (limit count) = lists.flatten := by
      rw [← List.flatMap_id']
      exact List.flatMap_congr fun contacts hmem ↦ limit_of_le (hshort contacts hmem)
    rw [hsame] at hfew
    omega
  obtain ⟨contacts, hmem, hlt⟩ := hlong
  obtain ⟨before, after, rfl⟩ := List.append_of_mem hmem
  rw [List.flatMap_append, List.flatMap_cons] at hfew ⊢
  rw [List.length_append, List.length_append, (limit_deepest count contacts).length_eq,
    Nat.min_eq_left hlt.le] at hfew
  have hbefore : before.flatMap (limit count) = [] := List.eq_nil_of_length_eq_zero (by omega)
  have hafter : after.flatMap (limit count) = [] := List.eq_nil_of_length_eq_zero (by omega)
  rw [hbefore, hafter, List.append_nil, List.nil_append, limit_of_lt hlt]
  exact sorted_top count contacts

/-- Cutting the parts of a list before the whole changes nothing. -/
theorem limit_flatMap_limit (count : ℕ) (lists : List (Contacts α)) :
    limit count (lists.flatMap (limit count)) = limit count lists.flatten := by
  rcases le_or_gt lists.flatten.length count with hle | hlt
  · have hsame : lists.flatMap (limit count) = lists.flatten := by
      rw [← List.flatMap_id']
      refine List.flatMap_congr fun contacts hmem ↦ limit_of_le ?_
      exact (List.sublist_flatten_of_mem hmem).length_le.trans hle
    rw [hsame]
  · rw [limit_of_lt hlt]
    refine Eq.trans ?_ (top_flatMap_limit count lists)
    rcases le_or_gt (lists.flatMap (limit count)).length count with hfew | hmany
    · rw [limit_of_le hfew, top, flatMap_limit_sorted hlt hfew, List.take_of_length_le hfew]
    · exact limit_of_lt hmany

end Contacts

/-! ### The contacts of two geoms -/

namespace Geom

variable {α : Type} [Scalar α]

/-- The contacts gathered by a visitor that is shown the pairs of leaves of two geoms which may
touch, one after another. -/
def gathered (contactsOf : TreeLeaf α × TreeLeaf α → Contacts α) (g other : Geom α) :
    Contacts α :=
  match g.tree?, other.tree? with
  | some t, some u =>
    (t.visitOverlaps (fun contacts pair ↦ (contacts ++ contactsOf pair, false)) [] g.pose u
      other.pose).1
  | _, _ => []

theorem gathered_eq (contactsOf : TreeLeaf α × TreeLeaf α → Contacts α) (g other : Geom α) :
    gathered contactsOf g other = (g.overlaps other).flatMap contactsOf := by
  unfold gathered overlaps
  rcases g.tree? with _ | t
  · rfl
  · rcases other.tree? with _ | u
    · rfl
    · dsimp only
      rw [BoxTree.visitOverlaps_eq, visitList_of_continuing fun _ _ ↦ rfl]
      exact List.flatMap_eq_foldl.symm

end Geom

namespace Contacts

variable (α : Type) [Scalar α]

/-- Cutting lists of contacts to a number of them before they are put together and cut again gives
the same contacts, in the same order, as cutting them once all are together. What is kept are the
deepest contacts. So two geoms have the contacts that are kept of all that a walk over their leaves
gathers when nothing is cut on the way. -/
theorem limit_in_stages :
    (∀ (count : ℕ) (lists : List (Contacts α)),
      limit count (lists.flatMap (limit count)) = limit count lists.flatten) ∧
    (∀ (count : ℕ) (contacts : Contacts α), Deepest count contacts (limit count contacts)) ∧
    ∀ (g other : Geom α) (tester : PairTester α),
      g.separate other tester = limit tester.config.contacts (Geom.gathered
        (fun pair ↦ tester.separateRebased (g.placedLeaf pair.1).rebase
          (other.placedLeaf pair.2).rebase) g other) := by
  refine ⟨limit_flatMap_limit, limit_deepest, fun g other tester ↦ ?_⟩
  let contactsOf := fun pair : TreeLeaf α × TreeLeaf α ↦
    tester.separateRebased (g.placedLeaf pair.1).rebase (other.placedLeaf pair.2).rebase
  have hstages := limit_flatMap_limit tester.config.contacts ((g.overlaps other).map contactsOf)
  rw [List.flatMap_map, ← List.flatMap_def] at hstages
  rw [Geom.gathered_eq]
  exact hstages

end Contacts

end Collision
