import Collision.Error

/-!
# Configuration

What a caller chooses: how box trees are built, which broad phase runs, how many contacts a pair may
report, how far portals are refined, and how long contacts are remembered.

Main definitions.

* `FitMethod` chooses the axes of a box, `BuildStrategy` the shape of a tree; `BuildConfig` has both
  and a number of threads, with `BuildConfig.precise`, `BuildConfig.fast`, `BuildConfig.parallel` as
  presets.
* `PortalConfig` and `MemoryConfig` are the settings of portal refinement and of contact memory.
* `Config` has everything. `Config.validate` finds the first fault.
-/

set_option autoImplicit false
set_option relaxedAutoImplicit false

namespace Collision

/-! ### Trees -/

/-- How the axes of a box around shapes are chosen. -/
inductive FitMethod where
  /-- Along the principal axes of the points that span the shapes. -/
  | covariance
  /-- Along the principal axes of the surfaces of the shapes. -/
  | surfaceCovariance
  /-- Along the principal axes of inertia of the surfaces. -/
  | inertia
  /-- Turn the covariance axes about the first one, that many steps to half a turn, and keep the
  smallest box. -/
  | calipers (rotations : Nat)
  /-- Try all Euler angles on a grid of that many steps to a quarter turn, and keep the smallest
  box. -/
  | angleGrid (rotations : Nat)
  deriving DecidableEq, Repr

/-- The name of a fitting method. -/
def FitMethod.name : FitMethod → String
  | covariance => "covariance"
  | surfaceCovariance => "covariance-fast"
  | inertia => "polyhedral-mass"
  | calipers _ => "calipers"
  | angleGrid _ => "naive"

/-- The number of rotations, for the methods that try some. -/
def FitMethod.rotations? : FitMethod → Option Nat
  | calipers n | angleGrid n => some n
  | _ => none

/-- How a box tree is put together. -/
inductive BuildStrategy where
  /-- Split the parts along the longest axis of their box, and again. -/
  | topDown
  /-- Merge the two nearest trees, and again. -/
  | bottomUp
  deriving DecidableEq, Repr

/-- How box trees are built. -/
structure BuildConfig where
  strategy : BuildStrategy := .topDown
  fit : FitMethod := .covariance
  /-- The number of pieces that are built apart and joined. -/
  threads : Nat := 1
  deriving DecidableEq, Repr

namespace BuildConfig

/-- Tighter boxes at a higher cost. -/
def precise : BuildConfig := { fit := .calipers 20 }

/-- The cheapest fitting. -/
def fast : BuildConfig := { fit := .surfaceCovariance }

/-- Ordinary fitting, in that many pieces. -/
def parallel (threads : Nat) : BuildConfig := { threads }

/-- The largest number of threads. -/
def threadLimit : Nat := 255

/-- The first fault of the build settings. -/
def validate {α : Type} (c : BuildConfig) : Except (Error α) Unit :=
  if c.threads = 0 then .error (.config .noBuildThreads)
  else if threadLimit < c.threads then .error (.config (.tooManyBuildThreads threadLimit c.threads))
  else if c.fit.rotations? = some 0 then .error (.config .noRotations)
  else .ok ()

end BuildConfig

/-! ### Queries -/

/-- How candidate pairs are found. -/
inductive BroadPhaseChoice where
  /-- Sweep along one axis over intervals that are kept sorted. -/
  | sweepAndPrune
  /-- Compare all pairs. -/
  | allPairs
  deriving DecidableEq, Repr

/-- The largest number of a machine word. -/
def wordLimit : Nat := 2 ^ (64 : Nat) - 1

variable {α : Type} [Scalar α]

/-- The scalar is finite and not negative. -/
def isFiniteNonnegative (a : α) : Bool := Scalar.isFinite a && !decide (a < 0)

/-- How far portals are refined. -/
structure PortalConfig (α : Type) where
  /-- The number of rounds after which a search gives up. -/
  iterations : Nat
  /-- The distance to the boundary at which a portal is good enough. -/
  tolerance : α

namespace PortalConfig

/-- As many rounds as needed, to a ten thousandth. -/
def standard : PortalConfig α := ⟨wordLimit, 1e-4⟩

/-- The first fault of the portal settings. -/
def validate (c : PortalConfig α) : Except (Error α) Unit :=
  if c.iterations = 0 then .error (.config .noIterations)
  else if isFiniteNonnegative c.tolerance then .ok ()
  else .error (.config (.tolerance c.tolerance))

end PortalConfig

/-- How contacts are remembered from one cycle to the next. -/
structure MemoryConfig (α : Type) where
  /-- Contacts are remembered at all. -/
  enabled : Bool
  /-- The number of pairs expected; zero leaves it to the pair capacity. -/
  capacity : Nat
  /-- How far a contact may drift and keep its identity. -/
  drift : α
  /-- The number of cycles that a pair outlives its last update by, less one. -/
  maxAge : Nat
  deriving Inhabited

namespace MemoryConfig

/-- Remember, forgive a hundredth, forget after one idle cycle. -/
def standard : MemoryConfig α := ⟨true, 0, 1e-2, 0⟩

/-- The first fault of the memory settings. -/
def validate (c : MemoryConfig α) : Except (Error α) Unit :=
  if isFiniteNonnegative c.drift then .ok () else .error (.config (.drift c.drift))

end MemoryConfig

/-! ### Everything -/

/-- All settings of an engine. -/
structure Config (α : Type) where
  build : BuildConfig
  broadPhase : BroadPhaseChoice
  /-- The number of candidate pairs expected. -/
  pairCapacity : Nat
  /-- The number of contacts that a pair may report. -/
  contacts : Nat
  threads : Nat
  portal : PortalConfig α
  memory : MemoryConfig α

namespace Config

/-- The settings of an engine that is told nothing. -/
def standard : Config α :=
  { build := {}
    broadPhase := .sweepAndPrune
    pairCapacity := 1023
    contacts := 20
    threads := 1
    portal := .standard
    memory := .standard }

/-- The settings with a number of threads, for building as far as allowed there. -/
def withThreads (c : Config α) (threads : Nat) : Config α :=
  { c with
    threads := threads
    build := { c.build with threads := Nat.min (Nat.max threads 1) BuildConfig.threadLimit } }

/-- The settings without contact memory. -/
def withoutMemory (c : Config α) : Config α :=
  { c with memory := { c.memory with enabled := false } }

/-- The number of pairs that contact memory expects. -/
def memoryCapacity (c : Config α) : Nat :=
  if c.memory.capacity = 0 then c.pairCapacity else c.memory.capacity

/-- The first fault of the settings. -/
def validate (c : Config α) : Except (Error α) Unit := do
  if c.contacts = 0 then .error (.config .noContacts)
  if c.threads = 0 then .error (.config .noThreads)
  c.build.validate
  c.portal.validate
  c.memory.validate

end Config

end Collision
