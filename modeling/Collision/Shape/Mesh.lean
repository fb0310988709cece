import Collision.Error

/-!
# Meshes and height fields

A mesh is a list of vertices and a list of faces that name them. A height field is a mesh over a
regular grid, two triangles to a grid cell.

Main definitions.

* `Mesh` holds at least one face, finite vertices and no index out of range; `Mesh.ofFaces` checks
  this and `Mesh.triangles` reads the triangles off.
* `HeightField.ofSamples` lays samples out in rows: the sample of number `k` in a grid `nx` wide
  stands in column `k % nx` and row `k / nx`.
* `HeightField.cellFaces` are the two counter-clockwise triangles of a grid cell.
-/

set_option autoImplicit false
set_option relaxedAutoImplicit false

namespace Collision

/-- Vertices and the triangles over them. -/
structure Mesh (α : Type) [Scalar α] where
  vertices : Array (Vec3 α)
  faces : List Face
  /-- There is a face. -/
  faces_ne_nil : faces ≠ []
  /-- Every vertex is finite. -/
  vertices_finite : ∀ v ∈ vertices, v.isFinite = true
  /-- Every face names vertices of the mesh. -/
  faces_inRange : ∀ f ∈ faces, f.InRange vertices.size

namespace Mesh

variable {α : Type} [Scalar α]

/-- The mesh of a list of vertices and a list of faces. -/
def ofFaces (vertices : Array (Vec3 α)) (faces : List Face) : Except (Error α) (Mesh α) :=
  if hempty : faces = [] then .error (.mesh .noTriangles)
  else
    match hfinite : vertices.find? fun v => !v.isFinite with
    | some v => .error (.mesh (.vertexNotFinite v))
    | none =>
      match hrange : faces.find? fun f => !decide (f.InRange vertices.size) with
      | some f => .error (.mesh (.indexOutOfRange f vertices.size))
      | none => .ok
        { vertices, faces
          faces_ne_nil := hempty
          vertices_finite := by
            intro v hv
            have h := Array.find?_eq_none.1 hfinite v hv
            simpa using h
          faces_inRange := by
            intro f hf
            have h := List.find?_eq_none.1 hrange f hf
            simpa using h }

/-- The corners of a face. -/
def triangleOf (m : Mesh α) (f : Face) (h : f.InRange m.vertices.size) : Triangle α :=
  have ⟨_, _, _⟩ := h
  ⟨m.vertices[f.first], m.vertices[f.second], m.vertices[f.third]⟩

/-- The triangles in the order of the faces. -/
def triangles (m : Mesh α) : List (Triangle α) :=
  m.faces.attach.map fun f => m.triangleOf f.1 (m.faces_inRange f.1 f.2)

/-- The mesh of the same faces over moved vertices. -/
def placed (m : Mesh α) (pose : Pose α) : Except (Error α) (Mesh α) :=
  ofFaces (m.vertices.map pose.transformPoint) m.faces

/-- There are as many triangles as faces. -/
theorem length_triangles (m : Mesh α) : m.triangles.length = m.faces.length := by
  simp [triangles]

end Mesh

/-- A surface over a regular grid in the xy plane. -/
structure HeightField (α : Type) [Scalar α] where
  /-- The number of samples along x. -/
  nx : Nat
  /-- The number of samples along y. -/
  ny : Nat
  /-- The distance of neighbouring samples along x. -/
  dx : α
  /-- The distance of neighbouring samples along y. -/
  dy : α
  /-- The triangulated surface. -/
  mesh : Mesh α

namespace HeightField

variable {α : Type} [Scalar α]

/-- The vertex of the sample of number `k`. -/
def vertex (nx : Nat) (dx dy : α) (k : Nat) (height : α) : Vec3 α :=
  ⟨Scalar.ofNat (k % nx) * dx, Scalar.ofNat (k / nx) * dy, height⟩

/-- The vertices of all samples, row by row. -/
def vertices (nx : Nat) (dx dy : α) (heights : List α) : Array (Vec3 α) :=
  (heights.zipIdx.map fun sample => vertex nx dx dy sample.2 sample.1).toArray

/-- The two triangles of the grid cell in column `i` and row `j`, both counter-clockwise seen from
above. -/
def cellFaces (nx i j : Nat) : List Face :=
  let corner := j * nx + i
  [⟨corner, corner + 1, corner + nx + 1⟩, ⟨corner, corner + nx + 1, corner + nx⟩]

/-- The triangles of all grid cells, row by row. -/
def gridFaces (nx ny : Nat) : List Face :=
  (List.range (ny - 1)).flatMap fun j => (List.range (nx - 1)).flatMap fun i => cellFaces nx i j

/-- The number of vertex indices. -/
def indexRange : Nat := 2 ^ (32 : Nat)

/-- The number of sample counts. -/
def countRange : Nat := 2 ^ (64 : Nat)

/-- The height field over samples given row by row. -/
def ofSamples (nx ny : Nat) (dx dy : α) (heights : List α) : Except (Error α) (HeightField α) :=
  if nx < 2 ∨ ny < 2 then .error (.mesh (.tooFewSamples nx ny))
  else if countRange ≤ nx * ny then .error (.mesh (.tooManySamples nx ny))
  else if heights.length ≠ nx * ny then .error (.mesh (.sampleCount (nx * ny) heights.length))
  else if ¬ (Scalar.isFinite dx ∧ Scalar.isFinite dy ∧ 0 < dx ∧ 0 < dy) then
    .error (.mesh (.spacing dx dy))
  else if indexRange ≤ nx ∨ indexRange ≤ (ny - 2) * nx + (nx - 2) then .error (.mesh .indexTooLarge)
  else do
    let mesh ← Mesh.ofFaces (vertices nx dx dy heights) (gridFaces nx ny)
    .ok { nx, ny, dx, dy, mesh }

end HeightField

end Collision
