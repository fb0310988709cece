import Collision.Space.Triangle

/-!
# Corners, edges and faces of a box

A box centred at the origin with its edges along the coordinate axes is given by its half lengths.
Its corners are numbered: corner `n` lies on the negative side along axis `k` when bit `k` of `n` is
set.

Main definitions.

* `BoxCorners.corner` and `BoxCorners.all` are the corners of a box of given half lengths.
* `BoxCorners.edges` are the twelve pairs of corners that differ in one bit.
* `BoxCorners.surface` are twelve triangles that cover the six faces.
-/

set_option autoImplicit false
set_option relaxedAutoImplicit false

namespace Collision

namespace BoxCorners

variable {α : Type} [Scalar α]

/-- The side of the box on which a corner lies along an axis. -/
def side (corner bit : Nat) : α := if corner.testBit bit then -1 else 1

/-- A corner of the box of the given half lengths. -/
def corner (half : Vec3 α) (n : Nat) : Vec3 α :=
  ⟨side n 0 * half.x, side n 1 * half.y, side n 2 * half.z⟩

/-- The eight corners in order. -/
def all (half : Vec3 α) : List (Vec3 α) := (List.range 8).map (corner half)

/-- The edges along the axis of a bit: the corners on the positive side, each with its neighbour on
the negative side. -/
def edgesAlong (bit : Nat) : List (Nat × Nat) :=
  ((List.range 8).filter fun n => !n.testBit bit).map fun n => (n, n + 2 ^ bit)

/-- The twelve edges. -/
def edges : List (Nat × Nat) := [0, 1, 2].flatMap edgesAlong

/-- Twelve triangles, two to a face. -/
def surface : List Face :=
  [⟨0, 2, 6⟩, ⟨0, 6, 4⟩, ⟨1, 5, 7⟩, ⟨1, 7, 3⟩, ⟨0, 4, 5⟩, ⟨0, 5, 1⟩,
    ⟨2, 3, 7⟩, ⟨2, 7, 6⟩, ⟨0, 1, 3⟩, ⟨0, 3, 2⟩, ⟨4, 6, 7⟩, ⟨4, 7, 5⟩]

/-- The triangles of `surface` on the box of the given half lengths. -/
def surfaceTriangles (half : Vec3 α) : List (Triangle α) :=
  surface.map fun f => ⟨corner half f.first, corner half f.second, corner half f.third⟩

/-- There are eight corners. -/
theorem length_all (half : Vec3 α) : (all half).length = 8 := by simp [all]

end BoxCorners

end Collision
