/-!
# Kinds of shapes

`ShapeKind` is what a shape is called in messages, and what overrides of the pair tests are keyed
by.
-/

set_option autoImplicit false
set_option relaxedAutoImplicit false

namespace Collision

/-- What a shape is. -/
inductive ShapeKind where
  | sphere
  | box
  | cylinder
  | capsule
  | plane
  | triangle
  | meshTriangle
  | convexHull
  | heightField
  | offset
  | mesh
  deriving DecidableEq, Repr, Inhabited

namespace ShapeKind

/-- Every kind once. -/
def all : List ShapeKind :=
  [sphere, box, cylinder, capsule, plane, triangle, meshTriangle, convexHull, heightField, offset,
    mesh]

/-- The name used in messages. -/
def name : ShapeKind → String
  | sphere => "sphere"
  | box => "box"
  | cylinder => "cylinder"
  | capsule => "capsule"
  | plane => "plane"
  | triangle => "triangle"
  | meshTriangle => "mesh triangle"
  | convexHull => "convex hull"
  | heightField => "height field"
  | offset => "offset"
  | mesh => "trimesh"

/-- The kind is made of many triangles. -/
def isComposite : ShapeKind → Bool
  | heightField | mesh => true
  | _ => false

/-- The kind of a name. -/
def ofName? (name : String) : Option ShapeKind := all.find? fun k => k.name == name

end ShapeKind

end Collision
