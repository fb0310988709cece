import Collision.Tree.Basic

/-!
# Walking two box trees together

Which leaves of two placed trees may touch. Pairs of nodes whose boxes are disjoint are dropped, and
of the others the node with the larger box is opened.

Main definitions.

* `visitList` shows the members of a list to a visitor until it has seen enough.
* `BoxTree.meet` says what becomes of a pair of nodes, `BoxTree.Meeting.next` which pairs come next.
* `BoxTree.overlaps` lists the pairs of leaves that remain, level by level, and
  `BoxTree.visitOverlaps` shows them to a visitor without going on once it has seen enough.
-/

set_option autoImplicit false
set_option relaxedAutoImplicit false

namespace Collision

/-- Show the members of a list to a visitor, who answers with a new state and whether it has seen
enough. The result is the last state and whether the visitor had enough. -/
def visitList {σ β : Type} (visit : σ → β → σ × Bool) (state : σ) : List β → σ × Bool
  | [] => (state, false)
  | b :: rest =>
    match visit state b with
    | (state, true) => (state, true)
    | (state, false) => visitList visit state rest

namespace BoxTree

variable {α : Type}

/-- What becomes of a pair of nodes. -/
inductive Meeting (α : Type) where
  /-- The boxes are disjoint. -/
  | apart
  /-- Two leaves may touch. -/
  | leaves (a b : TreeLeaf α)
  /-- The pairs with the children of one of the two. -/
  | opened (first second : BoxTree α × BoxTree α)

/-- The pair of leaves of a meeting. -/
def Meeting.leaves? : Meeting α → Option (TreeLeaf α × TreeLeaf α)
  | leaves a b => some (a, b)
  | apart | opened .. => none

/-- The pairs that come next after a meeting. -/
def Meeting.next : Meeting α → List (BoxTree α × BoxTree α)
  | opened first second => [first, second]
  | apart | leaves .. => []

variable [Scalar α]

/-- What becomes of a pair of nodes that are not disjoint: two leaves remain, and otherwise the node
with the larger radius is opened, the first one when they are equal. -/
def openLarger (a b : BoxTree α) : Meeting α :=
  match a, b with
  | leaf l, leaf m => .leaves l m
  | node _ _ left right, leaf m => .opened (left, leaf m) (right, leaf m)
  | leaf l, node _ _ left right => .opened (leaf l, left) (leaf l, right)
  | node p boxA leftA rightA, node q boxB leftB rightB =>
    if boxB.radius ≤ boxA.radius then
      .opened (leftA, node q boxB leftB rightB) (rightA, node q boxB leftB rightB)
    else .opened (node p boxA leftA rightA, leftB) (node p boxA leftA rightA, rightB)

/-- What becomes of a pair of placed nodes. -/
def meet (poseA poseB : Pose α) (pair : BoxTree α × BoxTree α) : Meeting α :=
  if pair.1.box.disjoint poseA pair.2.box poseB then .apart else openLarger pair.1 pair.2

/-- The size of a pair of nodes: the product of their sizes. -/
def pairSize (pair : BoxTree α × BoxTree α) : Nat := pair.1.size * pair.2.size

/-- The size of a level of pairs. -/
def levelSize : List (BoxTree α × BoxTree α) → Nat
  | [] => 0
  | pair :: rest => pairSize pair + levelSize rest

omit [Scalar α] in
theorem levelSize_append (first second : List (BoxTree α × BoxTree α)) :
    levelSize (first ++ second) = levelSize first + levelSize second := by
  induction first with
  | nil => simp [levelSize]
  | cons pair rest ih =>
    rw [List.cons_append, levelSize, levelSize, ih, Nat.add_assoc]

/-- What comes after opening a pair is smaller than the pair. -/
theorem levelSize_next_openLarger_lt (a b : BoxTree α) :
    levelSize (openLarger a b).next < pairSize (a, b) := by
  have hpos := fun t : BoxTree α => t.size_pos
  cases a with
  | leaf l =>
    cases b with
    | leaf m => simp [openLarger, Meeting.next, levelSize, pairSize, size]
    | node q box left right =>
      simp [openLarger, Meeting.next, levelSize, pairSize, size]
  | node p box left right =>
    cases b with
    | leaf m => simp [openLarger, Meeting.next, levelSize, pairSize, size]
    | node q boxB leftB rightB =>
      simp only [openLarger]
      split
      · simp only [Meeting.next, levelSize, pairSize, size, Nat.add_zero]
        rw [← Nat.add_mul]
        exact Nat.mul_lt_mul_of_pos_right (by omega) (by omega)
      · simp only [Meeting.next, levelSize, pairSize, size, Nat.add_zero]
        rw [← Nat.mul_add]
        exact Nat.mul_lt_mul_of_pos_left (by omega) (by omega)

/-- What comes after a meeting is smaller than the pair that met. -/
theorem levelSize_next_lt (poseA poseB : Pose α) (pair : BoxTree α × BoxTree α) :
    levelSize (meet poseA poseB pair).next < pairSize pair := by
  unfold meet
  split
  · exact Nat.mul_pos pair.1.size_pos pair.2.size_pos
  · exact levelSize_next_openLarger_lt pair.1 pair.2

/-- The pairs that come after the meetings of a level. -/
def nextLevel (poseA poseB : Pose α) (level : List (BoxTree α × BoxTree α)) :
    List (BoxTree α × BoxTree α) :=
  level.flatMap fun pair => (meet poseA poseB pair).next

/-- The pairs of leaves of a level. -/
def levelLeaves (poseA poseB : Pose α) (level : List (BoxTree α × BoxTree α)) :
    List (TreeLeaf α × TreeLeaf α) :=
  level.filterMap fun pair => (meet poseA poseB pair).leaves?

/-- The next level is not larger, and smaller unless the level is empty. -/
theorem levelSize_nextLevel_lt (poseA poseB : Pose α) (pair : BoxTree α × BoxTree α)
    (rest : List (BoxTree α × BoxTree α)) :
    levelSize (nextLevel poseA poseB (pair :: rest)) < levelSize (pair :: rest) := by
  have hle : ∀ level : List (BoxTree α × BoxTree α),
      levelSize (nextLevel poseA poseB level) ≤ levelSize level := by
    intro level
    induction level with
    | nil => exact Nat.le_refl _
    | cons pair rest ih =>
      have := levelSize_next_lt poseA poseB pair
      simp only [nextLevel, levelSize, List.flatMap_cons, levelSize_append] at *
      omega
  have hhead := levelSize_next_lt poseA poseB pair
  have htail := hle rest
  simp only [nextLevel, levelSize, List.flatMap_cons, levelSize_append] at *
  omega

/-- The pairs of leaves that remain below a level, nearer levels first. -/
def overlapsBelow (poseA poseB : Pose α) (level : List (BoxTree α × BoxTree α)) :
    List (TreeLeaf α × TreeLeaf α) :=
  match level with
  | [] => []
  | pair :: rest =>
    levelLeaves poseA poseB (pair :: rest) ++
      overlapsBelow poseA poseB (nextLevel poseA poseB (pair :: rest))
termination_by levelSize level
decreasing_by exact levelSize_nextLevel_lt poseA poseB pair rest

/-- The pairs of leaves of two placed trees that remain. -/
def overlaps (a : BoxTree α) (poseA : Pose α) (b : BoxTree α) (poseB : Pose α) :
    List (TreeLeaf α × TreeLeaf α) :=
  overlapsBelow poseA poseB [(a, b)]

variable {σ : Type}

/-- Show the pairs of leaves that remain below a level to a visitor; no level is opened once the
visitor has seen enough. -/
def visitBelow (visit : σ → TreeLeaf α × TreeLeaf α → σ × Bool) (poseA poseB : Pose α) (state : σ)
    (level : List (BoxTree α × BoxTree α)) : σ × Bool :=
  match level with
  | [] => (state, false)
  | pair :: rest =>
    match visitList visit state (levelLeaves poseA poseB (pair :: rest)) with
    | (state, true) => (state, true)
    | (state, false) =>
      visitBelow visit poseA poseB state (nextLevel poseA poseB (pair :: rest))
termination_by levelSize level
decreasing_by exact levelSize_nextLevel_lt poseA poseB pair rest

/-- Show the pairs of leaves of two placed trees that remain to a visitor. -/
def visitOverlaps (visit : σ → TreeLeaf α × TreeLeaf α → σ × Bool) (state : σ)
    (a : BoxTree α) (poseA : Pose α) (b : BoxTree α) (poseB : Pose α) : σ × Bool :=
  visitBelow visit poseA poseB state [(a, b)]

end BoxTree

end Collision
