import Collision.Shape.Mesh
import Collision.Shape.Primitive

/-!
# Shapes

Shapes are what geoms are made of: a part, which is one primitive where it is or moved, or a surface
of many triangles.

Main definitions.

* `Part` is a primitive in the frame of its owner, `Part.offset` a primitive moved inside that
  frame. `Part.rebase` trades the move for a composed pose.
* `Shape` is a part, a mesh or a height field, and `Shape.parts` are the parts it breaks up into.
* `Shape.outline` is the part of the same extent; the extent of a shape (`Shape.support?`,
  `Shape.project`, `Shape.center`, `Shape.localBox`, `Shape.hullPoints`) is that of its outline.
* `Shape.offset?` moves a shape inside its owner and `Shape.placedAt?` does so for surfaces too, by
  moving their vertices.
-/

set_option autoImplicit false
set_option relaxedAutoImplicit false

namespace Collision

/-! ### Parts -/

/-- One primitive in the frame of its owner. -/
inductive Part (α : Type) where
  | bare (primitive : Primitive α)
  /-- The primitive moved by a pose inside the frame of its owner. -/
  | offset (primitive : Primitive α) (pose : Pose α)

namespace Part

variable {α : Type}

/-- What the part is. -/
def kind : Part α → ShapeKind
  | bare p => p.kind
  | offset .. => .offset

/-- The corners of a triangle that is not moved. -/
def triangle? : Part α → Option (Triangle α)
  | bare p => p.triangle?
  | offset .. => none

/-- The primitive of the part. -/
def primitive : Part α → Primitive α
  | bare p | offset p _ => p

variable [Scalar α]

/-- Where the primitive stands when the owner stands at a pose. -/
def rebase (part : Part α) (pose : Pose α) : Pose α :=
  match part with
  | bare _ => pose
  | offset _ inner => pose.compose inner

/-- A point of the part farthest along a direction. -/
def support? (part : Part α) (direction : Vec3 α) : Option (Vec3 α) :=
  match part with
  | bare p => p.support? direction
  | offset p inner =>
    (p.support? (inner.inverseTransformVector direction)).map inner.transformPoint

/-- The interval that the placed part covers on an axis. -/
def project (part : Part α) (axis : Vec3 α) (pose : Pose α) : Interval α :=
  part.primitive.project axis (part.rebase pose)

/-- An interior point of the placed part. -/
def center (part : Part α) (pose : Pose α) : Vec3 α := part.primitive.center (part.rebase pose)

/-- A box around the part. -/
def localBox : Part α → OrientedBox α
  | bare p => p.localBox
  | offset p inner => p.localBox.placed inner

/-- The points that box axes are fitted to. -/
def hullPoints (part : Part α) (pose : Pose α) : List (Vec3 α) :=
  part.primitive.hullPoints (part.rebase pose)

/-- The part moved once more inside the frame of its owner. -/
def moved (part : Part α) (pose : Pose α) : Part α := offset part.primitive (part.rebase pose)

end Part

/-! ### Shapes -/

/-- A part or a surface of many triangles. -/
inductive Shape (α : Type) [Scalar α] where
  | part (part : Part α)
  | mesh (mesh : Mesh α)
  | heightField (field : HeightField α)

namespace Shape

variable {α : Type} [Scalar α]

/-- A primitive as a shape. -/
def primitive (p : Primitive α) : Shape α := .part (.bare p)

instance : Inhabited (Shape α) := ⟨primitive .plane⟩

/-- What the shape is. -/
def kind : Shape α → ShapeKind
  | part p => p.kind
  | mesh _ => .mesh
  | heightField _ => .heightField

/-- The triangulated surface of a shape made of many triangles. -/
def surface? : Shape α → Option (Mesh α)
  | part _ => none
  | mesh m => some m
  | heightField f => some f.mesh

/-- The shape is made of many triangles. -/
def isComposite (s : Shape α) : Bool := s.surface?.isSome

/-- The parts that a mesh breaks up into, one to a triangle. -/
def partsOfMesh (m : Mesh α) : List (Part α) :=
  m.triangles.map fun t => .bare (.meshTriangle t)

/-- The parts that the shape breaks up into. -/
def parts : Shape α → List (Part α)
  | part p => [p]
  | mesh m => partsOfMesh m
  | heightField f => partsOfMesh f.mesh

/-- The corners of a triangle that is not moved. -/
def triangle? : Shape α → Option (Triangle α)
  | part p => p.triangle?
  | mesh _ | heightField _ => none

/-- The part of the same extent: a surface reaches as far as the hull of its vertices. -/
def outline : Shape α → Part α
  | part p => p
  | mesh m => .bare (.convexHull m.vertices.toList)
  | heightField f => .bare (.convexHull f.mesh.vertices.toList)

/-- A point of the shape farthest along a direction. -/
def support? (s : Shape α) (direction : Vec3 α) : Option (Vec3 α) := s.outline.support? direction

/-- A point of the placed shape farthest along a direction. -/
def supportAt? (s : Shape α) (pose : Pose α) (direction : Vec3 α) : Option (Vec3 α) :=
  (s.support? (pose.inverseTransformVector direction)).map pose.transformPoint

/-- The interval that the placed shape covers on an axis. -/
def project (s : Shape α) (axis : Vec3 α) (pose : Pose α) : Interval α :=
  s.outline.project axis pose

/-- An interior point of the placed shape. -/
def center (s : Shape α) (pose : Pose α) : Vec3 α := s.outline.center pose

/-- A box around the shape. -/
def localBox (s : Shape α) : OrientedBox α := s.outline.localBox

/-- The points that box axes are fitted to. -/
def hullPoints (s : Shape α) (pose : Pose α) : List (Vec3 α) := s.outline.hullPoints pose

/-- The shape moved inside its owner; surfaces are refused. -/
def offset? (s : Shape α) (pose : Pose α) : Except (Error α) (Shape α) :=
  match s with
  | part p => .ok (.part (p.moved pose))
  | mesh _ | heightField _ => .error (.shape .offset (.compositeOffset s.kind))

/-- The shape moved inside its owner; the vertices of a surface are moved one by one, which makes a
mesh of it. -/
def placedAt? (s : Shape α) (pose : Pose α) : Except (Error α) (Shape α) :=
  match s.surface? with
  | some m => return .mesh (← m.placed pose)
  | none => s.offset? pose

/-- A mesh breaks up into as many parts as it has faces. -/
theorem length_partsOfMesh (m : Mesh α) : (partsOfMesh m).length = m.faces.length := by
  simp [partsOfMesh, Mesh.length_triangles]

end Shape

end Collision
