import Collision.Scalar
import Mathlib.Data.List.Basic

/-!
# Selections in the total order

The total order places every scalar, so a member of least key is well defined in every arithmetic.
`Scalar.firstMinBy?_eq_some` says that `Scalar.firstMinBy?` gives the first one, and
`Scalar.lastMaxBy?_eq_some` that no member has a larger key than the one of `Scalar.lastMaxBy?`.
-/

set_option autoImplicit false
set_option relaxedAutoImplicit false

namespace Collision

namespace Scalar

variable {α : Type} [Scalar α] {β : Type}

theorem totalLe_of_not {a b : α} (h : totalLe a b = false) : totalLe b a = true :=
  (totalLe_total a b).resolve_left (h ▸ Bool.false_ne_true)

/-- What is not at most a scalar is not at most anything below that scalar either. -/
theorem not_totalLe_of_totalLe {a b c : α} (hab : totalLe a b = false) (hcb : totalLe c b = true) :
    totalLe a c = false :=
  Bool.eq_false_iff.mpr fun hac ↦
    Bool.false_ne_true (hab.symm.trans (totalLe_trans a c b hac hcb))

/-- Keeping the nearer of two members all along a list keeps the first one of least key. -/
theorem foldl_firstMin_spec (key : β → α) (a : β) (rest : List β) :
    let best := rest.foldl (fun best c ↦ if totalLe (key best) (key c) then best else c) a
    ∃ before after, a :: rest = before ++ best :: after ∧
      (∀ b ∈ before, totalLe (key b) (key best) = false) ∧
      ∀ b ∈ after, totalLe (key best) (key b) = true := by
  induction rest generalizing a with
  | nil => exact ⟨[], [], rfl, nofun, nofun⟩
  | cons c rest ih =>
    simp only [List.foldl_cons]
    rcases hle : totalLe (key a) (key c) with _ | _
    · rw [if_neg Bool.false_ne_true]
      obtain ⟨before, after, hsplit, hbefore, hafter⟩ := ih c
      generalize rest.foldl _ c = best at hsplit hbefore hafter ⊢
      refine ⟨a :: before, after, by rw [hsplit, List.cons_append], ?_, hafter⟩
      refine List.forall_mem_cons.mpr ⟨?_, hbefore⟩
      match before, hsplit with
      | [], hsplit => rwa [← (List.cons.inj hsplit).1]
      | d :: _, hsplit =>
        obtain ⟨rfl, -⟩ := List.cons.inj hsplit
        exact not_totalLe_of_totalLe hle (totalLe_of_not (hbefore c List.mem_cons_self))
    · rw [if_pos rfl]
      obtain ⟨before, after, hsplit, hbefore, hafter⟩ := ih a
      generalize rest.foldl _ a = best at hsplit hbefore hafter ⊢
      match before, hsplit with
      | [], hsplit =>
        obtain ⟨hbest, rfl⟩ := List.cons.inj hsplit
        refine ⟨[], c :: rest, by rw [hbest]; rfl, nofun, ?_⟩
        exact List.forall_mem_cons.mpr ⟨hbest ▸ hle, hafter⟩
      | d :: before, hsplit =>
        obtain ⟨rfl, hrest⟩ := List.cons.inj hsplit
        have ha := hbefore a List.mem_cons_self
        refine ⟨a :: c :: before, after, by rw [hrest]; rfl, ?_, hafter⟩
        refine List.forall_mem_cons.mpr ⟨ha, List.forall_mem_cons.mpr ⟨?_, ?_⟩⟩
        · exact Bool.eq_false_iff.mpr fun hc ↦
            Bool.false_ne_true (ha.symm.trans (totalLe_trans _ _ _ hle hc))
        · exact fun b hb ↦ hbefore b (List.mem_cons_of_mem _ hb)

/-- No member has a smaller key than the selected one, and those before it have a larger one. -/
theorem firstMinBy?_eq_some {key : β → α} {members : List β} {best : β}
    (h : firstMinBy? key members = some best) :
    ∃ before after, members = before ++ best :: after ∧
      (∀ b ∈ before, totalLe (key b) (key best) = false) ∧
      ∀ b ∈ after, totalLe (key best) (key b) = true := by
  match members, h with
  | a :: rest, h =>
    obtain rfl := Option.some_inj.mp h
    exact foldl_firstMin_spec key a rest

theorem firstMinBy?_eq_none {key : β → α} {members : List β}
    (h : firstMinBy? key members = none) : members = [] := by
  match members, h with
  | [], _ => rfl

/-- Keeping the larger of two members all along a list keeps one of largest key. -/
theorem foldl_lastMax_spec (key : β → α) (a : β) (rest : List β) :
    let best := rest.foldl (fun best c ↦ if totalLe (key best) (key c) then c else best) a
    best ∈ a :: rest ∧ ∀ b ∈ a :: rest, totalLe (key b) (key best) = true := by
  induction rest generalizing a with
  | nil =>
    have hself : totalLe (key a) (key a) = true := (totalLe_total _ _).elim id id
    simpa using hself
  | cons c rest ih =>
    simp only [List.foldl_cons]
    rcases hle : totalLe (key a) (key c) with _ | _
    · rw [if_neg Bool.false_ne_true]
      obtain ⟨hmem, hmax⟩ := ih a
      have ha := hmax a List.mem_cons_self
      refine ⟨?_, List.forall_mem_cons.mpr ⟨ha, List.forall_mem_cons.mpr ⟨?_, ?_⟩⟩⟩
      · exact (List.mem_cons.mp hmem).elim (fun heq ↦ List.mem_cons.mpr (.inl heq))
          fun hmem ↦ .tail a (.tail c hmem)
      · exact totalLe_trans _ _ _ (totalLe_of_not hle) ha
      · exact fun b hb ↦ hmax b (.tail a hb)
    · rw [if_pos rfl]
      obtain ⟨hmem, hmax⟩ := ih c
      refine ⟨.tail a hmem, List.forall_mem_cons.mpr ⟨?_, hmax⟩⟩
      exact totalLe_trans _ _ _ hle (hmax c List.mem_cons_self)

/-- The selected member is one of those of largest key. -/
theorem lastMaxBy?_eq_some {key : β → α} {members : List β} {best : β}
    (h : lastMaxBy? key members = some best) :
    best ∈ members ∧ ∀ b ∈ members, totalLe (key b) (key best) = true := by
  match members, h with
  | a :: rest, h =>
    obtain rfl := Option.some_inj.mp h
    exact foldl_lastMax_spec key a rest

theorem lastMaxBy?_eq_none {key : β → α} {members : List β}
    (h : lastMaxBy? key members = none) : members = [] := by
  match members, h with
  | [], _ => rfl

end Scalar

end Collision
