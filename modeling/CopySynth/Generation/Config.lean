import CopySynth.Naming.SnakeCase

/-!
# Configuration

The names given to generated methods, and the limits of a run.
-/

namespace CopySynth

/-- How methods are named and when a run gives up. -/
structure Config where
  /-- The interface that public copies implement, if they do. -/
  publicTrait : Option String := some "Property"
  /-- The method of that interface. -/
  publicMethod : String := "copy_property"
  /-- The typed copy method, public and private alike. -/
  privateMethod : String := "copy"
  /-- The zero predicate. -/
  zeroMethod : String := "is_zero"
  /-- What precedes the interface's name in the name of its clone operation. -/
  capabilityPrefix : String := "clone_"
  /-- Whether the table is checked before the run. -/
  validate : Bool := true
  /-- How many bodies a family may make; one more than the table has types if not given. -/
  maxSteps : Option Nat := none
  deriving DecidableEq, Repr

namespace Config

/-- The name of an interface's clone operation. -/
def capabilityMethod (config : Config) (capability : String) : String :=
  config.capabilityPrefix ++ Naming.snakeCase capability

/-- How many bodies a family may make over a table of this size. -/
def budget (config : Config) (size : Nat) : Nat := config.maxSteps.getD (size + 1)

end Config

end CopySynth
