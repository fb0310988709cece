import Collision.Scalar
import Mathlib.Data.List.Basic
import Mathlib.Tactic.Common

/-!
# Sorting by falling key

`Scalar.sortDescending` in any arithmetic, for keys that may be equal and need not be numbers.

* `Scalar.Falling` is a list in the order of falling keys, and `Scalar.withKey` are the members of
  one key. A falling list is known by these (`Scalar.Falling.eq_of_withKey`), and sorting changes
  none of them (`Scalar.withKey_sortDescending`): members of equal key keep their order.
* So sorting two lists together merges the sorted lists (`Scalar.sortDescending_append`), and the
  first members of the sorted whole come from the first members of the sorted parts
  (`Scalar.take_sortDescending_append`).
-/

set_option autoImplicit false
set_option relaxedAutoImplicit false

namespace Collision

/-- The first members of a merge come from the first members of what is merged. -/
theorem take_merge {β : Type} (le : β → β → Bool) (count : ℕ) (first second : List β) :
    ((first.merge second le).take count) =
      ((first.take count).merge (second.take count) le).take count := by
  induction count generalizing first second with
  | zero => rfl
  | succ count ih =>
    match first, second with
    | [], second =>
      rw [List.take_nil, List.nil_merge, List.nil_merge, List.take_take, Nat.min_self]
    | first, [] =>
      rw [List.take_nil, List.merge_right, List.merge_right, List.take_take, Nat.min_self]
    | b :: first, c :: second =>
      have htake (d : β) (rest : List β) :
          (d :: rest.take count).take count = (d :: rest).take count := by
        rw [← List.take_succ_cons, List.take_take, Nat.min_eq_left (Nat.le_succ count)]
      rw [List.take_succ_cons, List.take_succ_cons, List.cons_merge_cons, List.cons_merge_cons]
      split_ifs
      · rw [List.take_succ_cons, List.take_succ_cons, ih,
          ih (first.take count) (c :: second.take count), htake, List.take_take, Nat.min_self]
      · rw [List.take_succ_cons, List.take_succ_cons, ih,
          ih (b :: first.take count) (second.take count), htake, List.take_take, Nat.min_self]

namespace Scalar

variable {α : Type} [Scalar α] {β : Type} {key : β → α} {members others : List β}

/-- The members are in the order of falling keys. -/
def Falling (key : β → α) (members : List β) : Prop :=
  members.Pairwise fun b c ↦ totalLe (key c) (key b) = true

/-- The members whose key has the place of a scalar in the total order. -/
def withKey (key : β → α) (a : α) (members : List β) : List β :=
  members.filter fun b ↦ totalLe (key b) a && totalLe a (key b)

/-! ### The order of falling keys -/

theorem totalLe_falling_trans (key : β → α) (b c d : β) (hbc : totalLe (key c) (key b) = true)
    (hcd : totalLe (key d) (key c) = true) : totalLe (key d) (key b) = true :=
  totalLe_trans _ _ _ hcd hbc

theorem totalLe_falling_total (key : β → α) (b c : β) :
    (totalLe (key c) (key b) || totalLe (key b) (key c)) = true :=
  (Bool.or_eq_true _ _).mpr (totalLe_total (key c) (key b))

/-! ### Members of one key -/

theorem totalLe_self (a : α) : totalLe a a = true := (totalLe_total a a).elim id id

theorem mem_withKey {a : α} {b : β} : b ∈ withKey key a members ↔
    b ∈ members ∧ totalLe (key b) a = true ∧ totalLe a (key b) = true := by
  simp [withKey]

theorem mem_withKey_self {b : β} : b ∈ withKey key (key b) members ↔ b ∈ members := by
  simp [mem_withKey, totalLe_self]

theorem withKey_append (a : α) (members others : List β) :
    withKey key a (members ++ others) = withKey key a members ++ withKey key a others :=
  List.filter_append members others

theorem withKey_cons_of_mem {a : α} {b : β} (h : b ∈ withKey key a [b]) (members : List β) :
    withKey key a (b :: members) = b :: withKey key a members := by
  obtain ⟨-, hle, hge⟩ := mem_withKey.mp h
  exact List.filter_cons_of_pos (by simp [hle, hge])

theorem withKey_cons_of_notMem {a : α} {b : β} (h : b ∉ withKey key a [b]) (members : List β) :
    withKey key a (b :: members) = withKey key a members := by
  refine List.filter_cons_of_neg fun hkey ↦ h (mem_withKey.mpr ⟨List.mem_singleton_self b, ?_⟩)
  simpa using hkey

theorem withKey_falling (a : α) (members : List β) : Falling key (withKey key a members) := by
  refine List.pairwise_of_forall_mem_list fun b hb c hc ↦ ?_
  exact totalLe_trans _ _ _ (mem_withKey.mp hc).2.1 (mem_withKey.mp hb).2.2

theorem withKey_sortDescending (key : β → α) (a : α) (members : List β) :
    withKey key a (sortDescending key members) = withKey key a members := by
  have hsublist : (withKey key a members).Sublist (sortDescending key members) := by
    exact List.sublist_mergeSort (totalLe_falling_trans key) (totalLe_falling_total key)
      (withKey_falling a members) List.filter_sublist
  have hperm : (withKey key a (sortDescending key members)).Perm (withKey key a members) :=
    (List.mergeSort_perm members _).filter _
  have hkept := hsublist.filter fun b ↦ totalLe (key b) a && totalLe a (key b)
  rw [withKey, List.filter_filter] at hkept
  simp only [Bool.and_self] at hkept
  exact (hkept.eq_of_length hperm.length_eq.symm).symm

/-! ### Falling lists -/

theorem sortDescending_perm (key : β → α) (members : List β) :
    (sortDescending key members).Perm members :=
  List.mergeSort_perm members _

theorem sortDescending_falling (key : β → α) (members : List β) :
    Falling key (sortDescending key members) :=
  List.pairwise_mergeSort (totalLe_falling_trans key) (totalLe_falling_total key) members

theorem sortDescending_of_falling (h : Falling key members) :
    sortDescending key members = members :=
  List.mergeSort_of_pairwise h

theorem Falling.totalLe_head {b c : β} (h : Falling key (b :: members)) (hc : c ∈ b :: members) :
    totalLe (key c) (key b) = true := by
  rcases List.mem_cons.mp hc with rfl | hc
  · exact totalLe_self _
  · exact List.rel_of_pairwise_cons h hc

theorem mem_iff_of_withKey (h : ∀ a, withKey key a members = withKey key a others) (b : β) :
    b ∈ members ↔ b ∈ others := by
  have hself : b ∈ withKey key (key b) members ↔ b ∈ withKey key (key b) others := by rw [h]
  rwa [mem_withKey_self, mem_withKey_self] at hself

/-- A falling list is known by its members of each key. -/
theorem Falling.eq_of_withKey (hmembers : Falling key members) (hothers : Falling key others)
    (h : ∀ a, withKey key a members = withKey key a others) : members = others := by
  have hmem := mem_iff_of_withKey h
  induction members generalizing others with
  | nil =>
    refine (List.eq_nil_iff_forall_not_mem.mpr fun b hb ↦ ?_).symm
    exact List.not_mem_nil ((hmem b).mpr hb)
  | cons b members ih =>
    match others with
    | [] => exact absurd ((hmem b).mp List.mem_cons_self) List.not_mem_nil
    | c :: others =>
      -- Both heads have the largest key, so they are the first members of one and the same key.
      have hbc := hothers.totalLe_head ((hmem b).mp List.mem_cons_self)
      have hcb := hmembers.totalLe_head ((hmem c).mpr List.mem_cons_self)
      have hheads := h (key b)
      rw [withKey_cons_of_mem (mem_withKey_self.mpr (List.mem_singleton_self b)),
        withKey_cons_of_mem (mem_withKey.mpr ⟨List.mem_singleton_self c, hcb, hbc⟩)] at hheads
      obtain rfl := (List.cons.inj hheads).1
      have htails (a : α) : withKey key a members = withKey key a others := by
        have hlists := h a
        by_cases hb : b ∈ withKey key a [b]
        · rw [withKey_cons_of_mem hb, withKey_cons_of_mem hb] at hlists
          exact (List.cons.inj hlists).2
        · rwa [withKey_cons_of_notMem hb, withKey_cons_of_notMem hb] at hlists
      have hrest : members = others :=
        ih hmembers.tail hothers.tail htails (mem_iff_of_withKey htails)
      rw [hrest]

/-! ### Sorting parts -/

/-- Merging falling lists puts the members of each key of the first list before those of the
second. -/
theorem withKey_merge (a : α) (hmembers : Falling key members) (hothers : Falling key others) :
    withKey key a (members.merge others fun b c ↦ totalLe (key c) (key b)) =
      withKey key a members ++ withKey key a others := by
  induction members generalizing others with
  | nil => rw [List.nil_merge]; rfl
  | cons b members ihMembers =>
    induction others with
    | nil => rw [List.merge_right, ← withKey_append, List.append_nil]
    | cons c others ihOthers =>
      rw [List.cons_merge_cons]
      split_ifs with hcb
      · by_cases hb : b ∈ withKey key a [b]
        · rw [withKey_cons_of_mem hb, withKey_cons_of_mem hb, ihMembers hmembers.tail hothers,
            List.cons_append]
        · rw [withKey_cons_of_notMem hb, withKey_cons_of_notMem hb,
            ihMembers hmembers.tail hothers]
      · by_cases hc : c ∈ withKey key a [c]
        · -- The key of `c` is larger than all keys of the first list.
          have hnone : withKey key a (b :: members) = [] := by
            refine List.eq_nil_iff_forall_not_mem.mpr fun d hd ↦ hcb ?_
            obtain ⟨hmem, -, had⟩ := mem_withKey.mp hd
            have hca := (mem_withKey.mp hc).2.1
            exact totalLe_trans _ _ _ (totalLe_trans _ _ _ hca had) (hmembers.totalLe_head hmem)
          rw [withKey_cons_of_mem hc, withKey_cons_of_mem hc, ihOthers hothers.tail, hnone,
            List.nil_append, List.nil_append]
        · rw [withKey_cons_of_notMem hc, withKey_cons_of_notMem hc, ihOthers hothers.tail]

theorem merge_falling (hmembers : Falling key members) (hothers : Falling key others) :
    Falling key (members.merge others fun b c ↦ totalLe (key c) (key b)) :=
  List.pairwise_merge (totalLe_falling_trans key) (totalLe_falling_total key) _ _ hmembers hothers

/-- Sorting two lists together merges the sorted lists. -/
theorem sortDescending_append (key : β → α) (members others : List β) :
    sortDescending key (members ++ others) =
      (sortDescending key members).merge (sortDescending key others)
        fun b c ↦ totalLe (key c) (key b) := by
  have hmembers := sortDescending_falling key members
  have hothers := sortDescending_falling key others
  refine (sortDescending_falling key _).eq_of_withKey (merge_falling hmembers hothers) fun a ↦ ?_
  rw [withKey_merge a hmembers hothers, withKey_sortDescending, withKey_sortDescending,
    withKey_sortDescending, withKey_append]

theorem Falling.take (h : Falling key members) (count : ℕ) : Falling key (members.take count) :=
  h.sublist (List.take_sublist count members)

/-- The first members of a sorted whole are those of the sorted first members of its parts. -/
theorem take_sortDescending_append (key : β → α) (count : ℕ) (members others : List β) :
    (sortDescending key (members ++ others)).take count =
      (sortDescending key ((sortDescending key members).take count ++
        (sortDescending key others).take count)).take count := by
  have hmembers := (sortDescending_falling key members).take count
  have hothers := (sortDescending_falling key others).take count
  rw [sortDescending_append, take_merge, sortDescending_append,
    sortDescending_of_falling hmembers, sortDescending_of_falling hothers]

end Scalar

end Collision
