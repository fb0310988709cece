import Collision.Shape.Kind
import Collision.Space.Triangle
import Collision.Text.Decimal

/-!
# Errors

What can be wrong with the description of a shape, a mesh, a configuration or a handle. An error is
its cause, with the values it speaks of; the wording is in `Error.message`.

Main definitions.

* `ShapeFault`, `MeshFault`, `ConfigFault` are the causes by subject, `Error` their union with an
  unknown handle.
* `Error.message` is the text of an error, given the text of a scalar.
* `Error.isAboutShape` and `Error.isAboutConfig` tell the subjects apart.
-/

set_option autoImplicit false
set_option relaxedAutoImplicit false

namespace Collision

/-- The parameter of a primitive. -/
inductive ShapeParameter where
  | radius
  | height
  | side (axis : Fin 3)
  deriving DecidableEq, Repr

/-- The name of a parameter in messages. -/
def ShapeParameter.name : ShapeParameter → String
  | radius => "radius"
  | height => "height"
  | side 0 => "x"
  | side 1 => "y"
  | side 2 => "z"

/-- What is wrong with a shape. -/
inductive ShapeFault (α : Type) where
  /-- A parameter is not a positive finite number. -/
  | notPositive (parameter : ShapeParameter) (value : α)
  /-- A vertex has a component that is not finite. -/
  | vertexNotFinite (vertex : Vec3 α)
  /-- A hull of no points. -/
  | noPoints
  /-- A mesh or a height field was to be wrapped in an offset. -/
  | compositeOffset (wrapped : ShapeKind)
  /-- A reason stated by the caller. -/
  | other (reason : String)

/-- What is wrong with a mesh or a height field. -/
inductive MeshFault (α : Type) where
  | noTriangles
  | vertexNotFinite (vertex : Vec3 α)
  /-- A triangle names a vertex that is not among the `count` vertices. -/
  | indexOutOfRange (triangle : Face) (count : Nat)
  /-- Fewer than two samples along an axis. -/
  | tooFewSamples (nx ny : Nat)
  /-- The number of samples is beyond the machine's range. -/
  | tooManySamples (nx ny : Nat)
  /-- The number of heights is not the number of samples. -/
  | sampleCount (expected given : Nat)
  /-- The spacing is not positive and finite. -/
  | spacing (dx dy : α)
  /-- A vertex index is beyond the range of indices. -/
  | indexTooLarge
  /-- A reason stated by the caller. -/
  | other (reason : String)

/-- What is wrong with a configuration. -/
inductive ConfigFault (α : Type) where
  | noContacts
  | noThreads
  | noBuildThreads
  /-- More threads for tree building than allowed. -/
  | tooManyBuildThreads (limit given : Nat)
  | noRotations
  | noIterations
  /-- The portal tolerance is negative or not finite. -/
  | tolerance (value : α)
  /-- The drift of remembered contacts is negative or not finite. -/
  | drift (value : α)
  /-- A reason stated by the caller. -/
  | other (reason : String)

/-- Why a shape, a configuration or a handle was refused. -/
inductive Error (α : Type) where
  | shape (kind : ShapeKind) (fault : ShapeFault α)
  | mesh (fault : MeshFault α)
  | config (fault : ConfigFault α)
  /-- No geom is registered under the handle. -/
  | unknownGeom (id : Nat)

/-! ### Wording -/

/-- A point between braces. -/
def Vec3.text {α : Type} (scalar : α → String) (p : Vec3 α) : String :=
  "\x7b" ++ scalar p.x ++ ", " ++ scalar p.y ++ ", " ++ scalar p.z ++ "\x7d"

/-- The indices of a triangle between brackets. -/
def Face.text (f : Face) : String :=
  "[" ++ toString f.first ++ ", " ++ toString f.second ++ ", " ++ toString f.third ++ "]"

/-- A resolution. -/
def resolutionText (nx ny : Nat) : String := toString nx ++ "x" ++ toString ny

/-- The reason in a shape error. -/
def ShapeFault.reason {α : Type} (scalar : α → String) : ShapeFault α → String
  | notPositive parameter value =>
    parameter.name ++ " must be positive and finite, got " ++ scalar value
  | vertexNotFinite vertex => "non-finite vertex " ++ vertex.text scalar
  | noPoints => "needs at least one point"
  | compositeOffset wrapped =>
    wrapped.name ++ " cannot be offset; transform its vertices instead"
  | other reason => reason

/-- The reason in a mesh error. -/
def MeshFault.reason {α : Type} (scalar : α → String) : MeshFault α → String
  | noTriangles => "mesh has no triangles"
  | vertexNotFinite vertex => "non-finite vertex " ++ vertex.text scalar
  | indexOutOfRange triangle count =>
    "triangle " ++ triangle.text ++ " references a vertex outside 0.." ++ toString count
  | tooFewSamples nx ny =>
    "height field needs at least 2x2 samples, got " ++ resolutionText nx ny
  | tooManySamples nx ny =>
    "height field of " ++ resolutionText nx ny ++ " samples is too large"
  | sampleCount expected given =>
    "height field expects " ++ toString expected ++ " samples, got " ++ toString given
  | spacing dx dy =>
    "height field spacing must be positive, got (" ++ scalar dx ++ ", " ++ scalar dy ++ ")"
  | indexTooLarge => "height field too large"
  | other reason => reason

/-- The reason in a configuration error. -/
def ConfigFault.reason {α : Type} (scalar : α → String) : ConfigFault α → String
  | noContacts => "max_contacts must be at least 1"
  | noThreads => "num_threads must be at least 1"
  | noBuildThreads => "build threads must be at least 1"
  | tooManyBuildThreads limit given =>
    "build threads must be at most " ++ toString limit ++ ", got " ++ toString given
  | noRotations => "fitting rotations must be at least 1"
  | noIterations => "mpr max_iterations must be at least 1"
  | tolerance value => "mpr tolerance must be finite and non-negative, got " ++ scalar value
  | drift value => "persistence max_dist must be finite and non-negative, got " ++ scalar value
  | other reason => reason

namespace Error

variable {α : Type}

/-- The text of an error. -/
def message (scalar : α → String) : Error α → String
  | shape kind fault => "invalid " ++ kind.name ++ " shape: " ++ fault.reason scalar
  | mesh fault => "invalid mesh: " ++ fault.reason scalar
  | config fault => "invalid configuration: " ++ fault.reason scalar
  | unknownGeom id => "invalid geom ID: " ++ toString id

/-- The text of an error over doubles. -/
def text (e : Error Float) : String := e.message Decimal.text

/-- The error is about a shape or a mesh. -/
def isAboutShape : Error α → Bool
  | shape .. | mesh .. => true
  | config .. | unknownGeom .. => false

/-- The error is about a configuration. -/
def isAboutConfig : Error α → Bool
  | config .. => true
  | shape .. | mesh .. | unknownGeom .. => false

end Error

end Collision
