import Collision.Proofs.Memory.Table
import Collision.Proofs.Broad.Pairs
import Collision.Proofs.Scalar.Negation

/-!
# Naming two geoms the other way about

An entry of contact memory is kept from the lower handle towards the higher one, whichever of the
two geoms a call names first. A call that names them the other way about, with its contacts seen
from the other geom, therefore does the same to the memory and answers the same contacts, seen from
the other geom (`ContactMemory.update_reversed`, `ContactMemory.contacts?_reversed`).

`Operation` are the calls together with the question for the contacts of a pair, `Answer` is what
they answer, and `ContactMemory.transcript` lists the answers of a run with the memory after each
operation.

* `ContactMemory.transcript_reversed` compares a run with one in which any of the operations name
  their geoms the other way about.
-/

set_option autoImplicit false
set_option relaxedAutoImplicit false

namespace Collision

variable {α : Type}

/-! ### Operations and answers -/

/-- A call that changes contact memory, or the question for the contacts of a pair. -/
inductive Operation (α : Type) where
  | call (call : ContactMemory.Call α)
  | contacts (a b : GeomId)

/-- What an operation answers. -/
inductive Answer (α : Type) where
  /-- The contacts of a pair, if there are any to speak of. -/
  | contacts (found : Option (Contacts α))
  | maintained (done : Maintenance)
  /-- The number of pairs that were forgotten. -/
  | removed (pairs : ℕ)
  | cleared

namespace Operation

/-- The operation names two geoms, if any, of different handles. -/
def NamesTwo : Operation α → Prop
  | .call (.update a b _) => a.id ≠ b.id
  | .contacts a b => a ≠ b
  | _ => True

variable [Scalar α]

/-- The operation with its geoms named the other way about; one that names no two geoms as it is. -/
def reversed : Operation α → Operation α
  | .call (.update a b found) => .call (.update b a (Contacts.flipped found))
  | .contacts a b => .contacts b a
  | operation => operation

/-- The operations with those at the marked places reversed. -/
def reversedWhere (marks : List Bool) (operations : List (Operation α)) : List (Operation α) :=
  List.zipWith (fun marked operation ↦ if marked then operation.reversed else operation) marks
    operations

end Operation

/-- The answer with its contacts seen from the other geom. -/
def Answer.reversed [Scalar α] : Answer α → Answer α
  | .contacts found => .contacts (found.map Contacts.flipped)
  | answer => answer

/-- The entries of a transcript with the answers at the marked places seen from the other geom. -/
def Answer.reversedWhere [Scalar α] {β : Type} (marks : List Bool)
    (entries : List (Answer α × β)) : List (Answer α × β) :=
  List.zipWith (fun marked entry ↦ (if marked then entry.1.reversed else entry.1, entry.2)) marks
    entries

/-! ### Two geoms in either order -/

namespace Participant

variable {a b : Participant α}

theorem swapped_comm (h : a.id ≠ b.id) : swapped b a = !swapped a b := by
  unfold swapped
  rw [← decide_not, decide_eq_decide, Nat.not_lt]
  exact ⟨Nat.le_of_lt, fun hle ↦ Nat.lt_of_le_of_ne hle h⟩

theorem orderedPoses_comm (h : a.id ≠ b.id) : orderedPoses b a = orderedPoses a b := by
  unfold orderedPoses
  rw [swapped_comm h]
  cases swapped a b <;> rfl

variable [Scalar α] [InvolutiveScalar α]

/-- The lower handle sees the same contacts. -/
theorem turned_reversed (h : a.id ≠ b.id) (contacts : Contacts α) :
    turned b a contacts.flipped = turned a b contacts := by
  unfold turned
  rw [swapped_comm h]
  cases swapped a b
  · exact Contacts.flipped_flipped contacts
  · rfl

end Participant

theorem PairMemory.output_not [Scalar α] [InvolutiveScalar α] (m : PairMemory α) (swap : Bool) :
    m.output (!swap) = (m.output swap).flipped := by
  cases swap
  · rfl
  · exact (Contacts.flipped_flipped _).symm

namespace ContactMemory

theorem agreedCapacity_comm (a b : ℕ) : agreedCapacity a b = agreedCapacity b a := by
  unfold agreedCapacity
  split_ifs with ha hb
  · rw [ha, hb]
  · rfl
  · rfl
  · exact Nat.min_comm a b

theorem pairOf_comm (m : ContactMemory α) (a b : Participant α) : m.pairOf b a = m.pairOf a b := by
  unfold pairOf
  rw [orderedPair_comm, agreedCapacity_comm]

theorem ignores_comm (m : ContactMemory α) (a b : Participant α) :
    m.ignores b a = m.ignores a b := by
  unfold ignores
  rw [Bool.and_comm]

variable [Scalar α]

/-! ### Runs -/

/-- What an operation answers. -/
def answer (m : ContactMemory α) : Operation α → Answer α
  | .call (.update a b contacts) => .contacts (some (m.update a b contacts).1)
  | .call .maintain => .maintained m.maintain.1
  | .call (.removeGeom id) => .removed (m.size - (m.removeGeom id).size)
  | .call .clear => .cleared
  | .contacts a b => .contacts (m.contacts? a b)

/-- The memory after an operation. A question changes nothing. -/
def perform (m : ContactMemory α) : Operation α → ContactMemory α
  | .call call => m.step call
  | .contacts _ _ => m

/-- What operations answer, each with the memory after it. -/
def transcript : ContactMemory α → List (Operation α) → List (Answer α × ContactMemory α)
  | _, [] => []
  | m, operation :: rest =>
    (m.answer operation, m.perform operation) :: (m.perform operation).transcript rest

variable [InvolutiveScalar α]

theorem update_reversed (m : ContactMemory α) {a b : Participant α} (h : a.id ≠ b.id)
    (contacts : Contacts α) :
    m.update b a contacts.flipped =
      ((m.update a b contacts).1.flipped, (m.update a b contacts).2) := by
  unfold update
  rw [ignores_comm, pairOf_comm, Participant.orderedPoses_comm h, Participant.turned_reversed h,
    Participant.swapped_comm h, orderedPair_comm b.id a.id]
  cases m.ignores a b
  · exact congrArg (Prod.mk · _) (PairMemory.output_not _ _)
  · rfl

theorem contacts?_reversed (m : ContactMemory α) {a b : GeomId} (h : a ≠ b) :
    m.contacts? b a = (m.contacts? a b).map Contacts.flipped := by
  have hswap : decide (a < b) = !decide (b < a) := by
    rw [← decide_not, decide_eq_decide, Nat.not_lt]
    exact ⟨Nat.le_of_lt, fun hle ↦ Nat.lt_of_le_of_ne hle h⟩
  unfold contacts?
  rw [orderedPair_comm, hswap, Option.map_map]
  exact congrArg (Option.map · _) (funext fun pair ↦ pair.output_not _)

/-- An operation that names its geoms the other way about leaves the same memory. -/
theorem perform_reversed (m : ContactMemory α) {operation : Operation α}
    (h : operation.NamesTwo) : m.perform operation.reversed = m.perform operation := by
  cases operation with
  | call call =>
    cases call with
    | update a b found =>
      show (m.update b a found.flipped).2 = (m.update a b found).2
      rw [m.update_reversed h]
    | maintain => rfl
    | removeGeom id => rfl
    | clear => rfl
  | contacts a b => rfl

/-- An operation that names its geoms the other way about answers the same from the other side. -/
theorem answer_reversed (m : ContactMemory α) {operation : Operation α} (h : operation.NamesTwo) :
    m.answer operation.reversed = (m.answer operation).reversed := by
  cases operation with
  | call call =>
    cases call with
    | update a b found =>
      show Answer.contacts (some (m.update b a found.flipped).1) = _
      rw [m.update_reversed h]
      rfl
    | maintain => rfl
    | removeGeom id => rfl
    | clear => rfl
  | contacts a b => exact congrArg Answer.contacts (m.contacts?_reversed h)

/-- Operations on pairs of different geoms, from any memory, with those at any places reversed: each
leaves the memory that it would have left, and answers what it would have answered, a reversed one
as seen from the other geom. -/
theorem transcript_reversed (m : ContactMemory α) (operations : List (Operation α))
    (hpairs : ∀ operation ∈ operations, operation.NamesTwo) (marks : List Bool) :
    m.transcript (Operation.reversedWhere marks operations) =
      Answer.reversedWhere marks (m.transcript operations) := by
  unfold Operation.reversedWhere Answer.reversedWhere
  induction operations generalizing m marks with
  | nil => simp [transcript]
  | cons operation rest ih =>
    obtain ⟨hfirst, hrest⟩ := List.forall_mem_cons.mp hpairs
    cases marks with
    | nil => rfl
    | cons marked marks =>
      rw [List.zipWith_cons_cons, transcript, transcript, List.zipWith_cons_cons]
      cases marked
      · exact congrArg _ (ih _ hrest marks)
      · rw [if_pos rfl, m.perform_reversed hfirst, m.answer_reversed hfirst]
        exact congrArg _ (ih _ hrest marks)

/-- An update and the question that follows it may both name the higher handle last instead of
first. -/
theorem transcript_reversed_update_and_question :
    let first : Participant Float := ⟨3, .identity, 4⟩
    let second : Participant Float := ⟨1, .identity, 0⟩
    let found : Contacts Float := [⟨⟨0, 0, 0⟩, ⟨0, 0, 1⟩, 1, none⟩]
    let operations : List (Operation Float) :=
      [.call (.update first second found), .call .maintain, .contacts 3 1]
    let m : ContactMemory Float := .empty .standard
    (∀ operation ∈ operations, operation.NamesTwo) ∧
      m.transcript [.call (.update second first (Contacts.flipped found)), .call .maintain,
        .contacts 1 3] = Answer.reversedWhere [true, false, true] (m.transcript operations) := by
  intro first second found operations m
  have hpairs : ∀ operation ∈ operations, operation.NamesTwo := by
    simp [operations, Operation.NamesTwo, first, second]
  exact ⟨hpairs, transcript_reversed m operations hpairs [true, false, true]⟩

end ContactMemory

end Collision
