import Collision.Box.Fit
import Collision.Tree.Basic

/-!
# Building box trees

Three ways to a tree over a list of parts: splitting the list, merging the nearest, and joining
trees that were built over pieces of the list. The places are given out so that the leaves come
first, in the order of the list, and every node comes before its parent.

Main definitions.

* `halves` splits a list at the mean of a key, or into equal halves where the mean does not split.
* `BoxTree.topDown` splits along the longest axis of the fitted box, `BoxTree.bottomUp?` merges the
  two trees whose reference points are nearest.
* `BoxTree.joinAll?` joins neighbouring trees, in rounds, until one is left.
* `BoxTree.build?` is the tree of a list of parts under a configuration; no parts have no tree.
-/

set_option autoImplicit false
set_option relaxedAutoImplicit false

namespace Collision

/-! ### Lists -/

section Lists

variable {β : Type}

/-- The pairs of an earlier and a later member, by the earlier one first. -/
def pairsOf : List β → List (β × β)
  | [] => []
  | b :: rest => rest.map (b, ·) ++ pairsOf rest

/-- The list without the member at a place; the last member takes that place. -/
def removeSwapping (place : Nat) (members : List β) : List β :=
  match members.getLast? with
  | some last => (members.set place last).dropLast
  | none => []

/-- The list cut into pieces of `size + 1` members, the last piece with what is left. -/
def pieces (size : Nat) (members : List β) : List (List β) :=
  match members with
  | [] => []
  | b :: rest => (b :: rest.take size) :: pieces size (rest.drop size)
termination_by members.length
decreasing_by simp only [List.length_drop, List.length_cons]; omega

variable {α : Type} [Scalar α]

/-- The members whose key is below the mean key, and the others; where one of the two lists would be
empty, the lower and the upper half in the order of the keys. -/
def halves (key : β → α) (members : List β) : List β × List β :=
  let mean := Scalar.sum (members.map key) / Scalar.ofNat members.length
  let split := members.partition fun b => decide (key b < mean)
  if split.1.isEmpty || split.2.isEmpty then
    let sorted := Scalar.sortAscending key members
    (sorted.take (members.length / 2), sorted.drop (members.length / 2))
  else split

/-- The two halves are together as long as the list. -/
theorem length_halves (key : β → α) (members : List β) :
    (halves key members).1.length + (halves key members).2.length = members.length := by
  unfold halves
  extract_lets mean split sorted
  have hsorted : sorted.length = members.length := List.length_mergeSort _
  split
  · simp only [List.length_take, List.length_drop]
    omega
  · simp only [split, List.partition_eq_filter_filter]
    rw [← List.countP_eq_length_filter, ← List.countP_eq_length_filter,
      List.length_eq_countP_add_countP fun b => decide (key b < mean)]
    refine congrArg _ (List.countP_congr fun b _ => ?_)
    simp

/-- Neither half of a list of two or more members is empty. -/
theorem halves_ne_nil (key : β → α) (members : List β) (h : 2 ≤ members.length) :
    (halves key members).1 ≠ [] ∧ (halves key members).2 ≠ [] := by
  unfold halves
  extract_lets mean split sorted
  have hsorted : sorted.length = members.length := List.length_mergeSort _
  split
  · constructor <;> refine List.ne_nil_of_length_pos ?_
    · simp only [List.length_take]
      omega
    · simp only [List.length_drop]
      omega
  · rename_i hsplit
    simp only [Bool.or_eq_true, List.isEmpty_iff, not_or] at hsplit
    exact hsplit

end Lists

namespace BoxTree

variable {α : Type} [Scalar α]

/-- A tree with its parts in the order in which boxes are fitted to them. -/
structure Grove (α : Type) where
  tree : BoxTree α
  parts : List (Part α)

/-- The box around parts. -/
def fitParts (method : FitMethod) (parts : List (Part α)) : OrientedBox α :=
  OrientedBox.fitted method (parts.map Shape.part)

/-- Two trees under a common node. -/
def Grove.join (method : FitMethod) (place : Nat) (a b : Grove α) : Grove α :=
  let parts := a.parts ++ b.parts
  ⟨.node place (fitParts method parts) a.tree b.tree, parts⟩

/-- The parts of a list, each with its place in the list. -/
def numbered (parts : List (Part α)) : List (Nat × Part α) :=
  parts.zipIdx.map fun entry => (entry.2, entry.1)

/-! ### Splitting -/

/-- The numbered parts in the order of their places along the longest axis of a box, split. -/
def splitAlong (box : OrientedBox α) (parts : List (Nat × Part α)) :
    List (Nat × Part α) × List (Nat × Part α) :=
  let axis := box.axes.col box.half.longestAxis
  halves (fun entry => (entry.2.center Pose.identity).dot axis) parts

/-- The tree over numbered parts by splitting, with places from `next` on for what is not a leaf,
and the first place not used. -/
def topDown (method : FitMethod) (parts : List (Nat × Part α)) (h : parts ≠ []) (next : Nat) :
    BoxTree α × Nat :=
  if hone : parts.length < 2 then
    let entry := parts.head h
    (single entry.1 entry.2, next)
  else
    let box := fitParts method (parts.map Prod.snd)
    let split := splitAlong box parts
    have hlength : split.1.length + split.2.length = parts.length := length_halves _ _
    have hnil : split.1 ≠ [] ∧ split.2 ≠ [] := halves_ne_nil _ _ (by omega)
    have hleft : 0 < split.1.length := List.length_pos_iff.2 hnil.1
    have hright : 0 < split.2.length := List.length_pos_iff.2 hnil.2
    let left := topDown method split.1 hnil.1 next
    let right := topDown method split.2 hnil.2 left.2
    (.node right.2 box left.1 right.1, right.2 + 1)
termination_by parts.length
decreasing_by
  · exact (by omega : split.1.length < parts.length)
  · exact (by omega : split.2.length < parts.length)

/-! ### Merging -/

/-- The nearer of the pair found so far and another pair; a distance that is not finite is never
nearer. -/
def nearer (best : Option (α × Nat × Nat)) (pair : (Grove α × Nat) × (Grove α × Nat)) :
    Option (α × Nat × Nat) :=
  let distance := (pair.1.1.tree.reference - pair.2.1.tree.reference).normSq
  let accepted := match best with
    | some found => decide (distance < found.1)
    | none => Scalar.isFinite distance
  if accepted then some (distance, pair.1.2, pair.2.2) else best

/-- The places of the two trees that are nearest, the first of several; the first two when no
distance is finite. -/
def nearestPair (groves : List (Grove α)) : Nat × Nat :=
  match (pairsOf groves.zipIdx).foldl nearer none with
  | some found => found.2
  | none => (0, 1)

/-- The two nearest trees are taken out and their common tree is added at the end. -/
def mergeNearest (method : FitMethod) (place : Nat) (groves : List (Grove α)) : List (Grove α) :=
  let (i, j) := nearestPair groves
  match groves[i]?, groves[j]? with
  | some a, some b => removeSwapping i (removeSwapping j groves) ++ [a.join method place b]
  | _, _ => groves

/-- As many merges as given, with places from `next` on. -/
def merges (method : FitMethod) : Nat → Nat → List (Grove α) → List (Grove α)
  | 0, _, groves => groves
  | count + 1, next, groves => merges method count (next + 1) (mergeNearest method next groves)

/-- The tree over numbered parts by merging, with places from `next` on for what is not a leaf. -/
def bottomUp? (method : FitMethod) (parts : List (Nat × Part α)) (next : Nat) :
    Option (BoxTree α) :=
  let start := parts.map fun entry => Grove.mk (single entry.1 entry.2) [entry.2]
  ((merges method (parts.length - 1) next start).head?).map Grove.tree

/-! ### Joining -/

/-- The tree over parts by one of the strategies. -/
def buildPiece? (config : BuildConfig) (parts : List (Part α)) : Option (Grove α) :=
  let numbered := numbered parts
  let tree := match config.strategy with
    | .topDown =>
      if h : numbered ≠ [] then some (topDown config.fit numbered h parts.length).1 else none
    | .bottomUp => bottomUp? config.fit numbered parts.length
  tree.map fun tree => ⟨tree, parts⟩

/-- Two trees joined, the places of the second one following those of the first. -/
def Grove.append (method : FitMethod) (a b : Grove α) : Grove α :=
  a.join method (a.tree.size + b.tree.size) ⟨b.tree.shift a.tree.size, b.parts⟩

/-- Neighbours joined; a last one without a neighbour stays. -/
def joinNeighbours (method : FitMethod) : List (Grove α) → List (Grove α)
  | a :: b :: rest => a.append method b :: joinNeighbours method rest
  | rest => rest

/-- Joining neighbours does not lengthen a list. -/
theorem length_joinNeighbours_le (method : FitMethod) (groves : List (Grove α)) :
    (joinNeighbours method groves).length ≤ groves.length := by
  fun_induction joinNeighbours method groves with
  | case1 a b rest ih => simp only [List.length_cons]; omega
  | case2 rest h => exact Nat.le_refl _

/-- Neighbours are joined in rounds until one tree is left. -/
def joinAll? (method : FitMethod) (groves : List (Grove α)) : Option (Grove α) :=
  match groves with
  | [] => none
  | [a] => some a
  | a :: b :: rest => joinAll? method (a.append method b :: joinNeighbours method rest)
termination_by groves.length
decreasing_by
  have := length_joinNeighbours_le method rest
  simp only [List.length_cons]
  omega

/-- The number of pieces that are built apart: the threads, as far as there are parts. -/
def pieceCount (config : BuildConfig) (parts : List (Part α)) : Nat :=
  Nat.min (Nat.max config.threads 1) parts.length

/-- The length of a piece, rounded up, less one. -/
def pieceSize (config : BuildConfig) (parts : List (Part α)) : Nat :=
  (parts.length - 1) / pieceCount config parts

/-- The tree over a list of parts; there is none over no parts. -/
def build? (config : BuildConfig) (parts : List (Part α)) : Option (BoxTree α) :=
  let groves := (pieces (pieceSize config parts) parts).filterMap (buildPiece? config)
  (joinAll? config.fit groves).map Grove.tree

end BoxTree

end Collision
