import Collision.Contact
import Collision.Proofs.Space.Vector
import Mathlib.Data.List.Sort

/-!
# What contacts promise

`Contacts.Resolve contacts overlap` says that contacts answer for a pair of bodies. Here `overlap`
tells of every offset whether the pair overlaps once the second body is moved by it. There are
contacts exactly where the pair overlaps; their normals are unit vectors and their depths positive;
and a contact that no other one is deeper than is a way out: moving the second body along its normal
by its depth leaves the pair apart.

Which of several deepest contacts is taken does not matter, so the promise outlives the cut to a
number of contacts (`Contacts.Resolve.limit`) and the change of sides (`Contacts.Resolve.flipped`).
-/

set_option autoImplicit false
set_option relaxedAutoImplicit false

namespace Collision

namespace Contacts

/-! ### Deepest contacts -/

theorem exists_deepest {contacts : Contacts ℝ} (h : contacts ≠ []) :
    ∃ c, contacts.deepest? = some c ∧ c ∈ contacts ∧ ∀ d ∈ contacts, d.depth ≤ c.depth :=
  Scalar.lastMaxBy?_real Contact.depth contacts h

theorem mem_of_mem_limit {count : ℕ} {contacts : Contacts ℝ} {c : Contact ℝ}
    (h : c ∈ contacts.limit count) : c ∈ contacts := by
  unfold limit at h
  split_ifs at h
  · exact h
  · exact List.mem_mergeSort.mp (List.mem_of_mem_take h)

/-- The cut to a number of contacts keeps a deepest one. -/
theorem exists_deepest_mem_limit {count : ℕ} (hcount : 1 ≤ count) {contacts : Contacts ℝ}
    (h : contacts ≠ []) :
    ∃ c ∈ contacts.limit count, ∀ d ∈ contacts, d.depth ≤ c.depth := by
  unfold limit
  split_ifs with hlength
  · obtain ⟨c, -, hc⟩ := exists_deepest h
    exact ⟨c, hc⟩
  · obtain ⟨c, rest, hsort, hmax⟩ := Scalar.sortDescending_real Contact.depth h
    obtain ⟨k, rfl⟩ := Nat.exists_eq_add_of_le' hcount
    refine ⟨c, ?_, hmax⟩
    rw [hsort, List.take_succ_cons]
    exact List.mem_cons_self

/-- The cut leaves no contact only where there was none. -/
theorem limit_eq_nil_iff {count : ℕ} (hcount : 1 ≤ count) {contacts : Contacts ℝ} :
    contacts.limit count = [] ↔ contacts = [] := by
  constructor
  · intro hnone
    by_contra hne
    obtain ⟨c, hc, -⟩ := exists_deepest_mem_limit hcount hne
    rw [hnone] at hc
    cases hc
  · rintro rfl
    rfl

/-! ### The promise -/

/-- The contacts answer for a pair of bodies that overlap as told by `overlap`, which is given the
vector by which the second body is moved. -/
structure Resolve (contacts : Contacts ℝ) (overlap : Vec3 ℝ → Prop) : Prop where
  ne_nil_iff : contacts ≠ [] ↔ overlap 0
  normal : ∀ c ∈ contacts, c.normal.IsDirection
  depth_pos : ∀ c ∈ contacts, 0 < c.depth
  separated : ∀ c ∈ contacts, (∀ d ∈ contacts, d.depth ≤ c.depth) →
    ¬ overlap (c.normal * c.depth)

theorem resolve_nil {overlap : Vec3 ℝ → Prop} (h : ¬ overlap 0) : Resolve [] overlap where
  ne_nil_iff := iff_of_false (fun hne ↦ hne rfl) h
  normal := nofun
  depth_pos := nofun
  separated := nofun

theorem resolve_singleton {overlap : Vec3 ℝ → Prop} {c : Contact ℝ} (hoverlap : overlap 0)
    (hnormal : c.normal.IsDirection) (hdepth : 0 < c.depth)
    (hseparated : ¬ overlap (c.normal * c.depth)) : Resolve [c] overlap where
  ne_nil_iff := iff_of_true (List.cons_ne_nil c []) hoverlap
  normal := List.forall_mem_singleton.mpr hnormal
  depth_pos := List.forall_mem_singleton.mpr hdepth
  separated := List.forall_mem_singleton.mpr fun _ ↦ hseparated

namespace Resolve

variable {contacts : Contacts ℝ} {overlap : Vec3 ℝ → Prop}

/-- Where the pair overlaps, the deepest contact is a way out. -/
theorem exists_way_out (h : contacts.Resolve overlap) (hoverlap : overlap 0) :
    ∃ c, contacts.deepest? = some c ∧ ¬ overlap (c.normal * c.depth) := by
  obtain ⟨c, hdeepest, hmem, hmax⟩ := exists_deepest (h.ne_nil_iff.mpr hoverlap)
  exact ⟨c, hdeepest, h.separated c hmem hmax⟩

theorem limit (h : contacts.Resolve overlap) {count : ℕ} (hcount : 1 ≤ count) :
    (contacts.limit count).Resolve overlap where
  ne_nil_iff := (not_congr (limit_eq_nil_iff hcount)).trans h.ne_nil_iff
  normal c hc := h.normal c (mem_of_mem_limit hc)
  depth_pos c hc := h.depth_pos c (mem_of_mem_limit hc)
  separated c hc hmax := by
    have hmem := mem_of_mem_limit hc
    obtain ⟨e, he, hdeepest⟩ := exists_deepest_mem_limit hcount (List.ne_nil_of_mem hmem)
    exact h.separated c hmem fun d hd ↦ (hdeepest d hd).trans (hmax e he)

/-- Seen from the other body the contacts answer for the pair with its bodies exchanged. -/
theorem flipped (h : contacts.Resolve overlap) :
    contacts.flipped.Resolve fun offset ↦ overlap (-offset) where
  ne_nil_iff := by
    rw [neg_zero, ← h.ne_nil_iff]
    exact not_congr List.map_eq_nil_iff
  normal := List.forall_mem_map.mpr fun c hc ↦ (h.normal c hc).neg
  depth_pos := List.forall_mem_map.mpr h.depth_pos
  separated := List.forall_mem_map.mpr fun c hc hmax ↦ by
    have hway := h.separated c hc (List.forall_mem_map.mp hmax)
    have hback : -(c.flipped.normal * c.flipped.depth) = c.normal * c.depth := by
      show -(-c.normal * c.depth) = c.normal * c.depth
      rw [Vec3.mul_eq_smul, smul_neg, neg_neg, Vec3.mul_eq_smul]
    rwa [hback]

end Resolve

end Contacts

end Collision
