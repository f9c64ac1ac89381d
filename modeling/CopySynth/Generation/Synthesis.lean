import CopySynth.Copy.Body
import CopySynth.Generation.Family
import CopySynth.Zero.Body

/-!
# A synthesis

The methods made for a set of requested types, in the order in which they are written out, with the
interfaces whose clone operations they call.
-/

namespace CopySynth

/-- The body of a method. -/
inductive MethodBody where
  | copy (body : CopyBody)
  | zero (body : ZeroBody)
  deriving DecidableEq, Repr

/-- A method made for a type. -/
structure Method where
  /-- The type. -/
  type : String
  /-- The family. -/
  family : Family
  /-- The body. -/
  body : MethodBody
  /-- Whether the type was reached from another instead of being requested. -/
  discovered : Bool := false
  deriving DecidableEq, Repr

namespace Method

/-- The copy body that a method gives this type. -/
def copyOf? (type : String) (method : Method) : Option CopyBody :=
  match method.body with
  | .copy body => if method.type = type then some body else none
  | .zero _ => none

/-- The zero predicate that a method gives this type. -/
def zeroOf? (type : String) (method : Method) : Option ZeroBody :=
  match method.body with
  | .zero body => if method.type = type then some body else none
  | .copy _ => none

/-- The types whose predicates a method calls. -/
def delegates (method : Method) : List String :=
  match method.body with
  | .zero body => body.delegates
  | .copy _ => []

end Method

/-- Methods and the interfaces they rely on. -/
structure Synthesis where
  /-- The methods, in order. -/
  methods : List Method := []
  /-- The interfaces whose clone operations are called, each once, in order of the first call. -/
  capabilities : List String := []
  deriving DecidableEq, Repr

namespace Synthesis

/-- The method of a family for a type. -/
def find? (synthesis : Synthesis) (type : String) (family : Family) : Option Method :=
  synthesis.methods.find? fun method => method.type = type ∧ method.family = family

/-- The types that have a method of a family, in order. -/
def names (synthesis : Synthesis) (family : Family) : List String :=
  (synthesis.methods.filter fun method => method.family = family).map Method.type

/-- The copy body of a type, from either copy family. -/
def copyBody? (synthesis : Synthesis) (type : String) : Option CopyBody :=
  synthesis.methods.findSome? (Method.copyOf? type)

/-- The zero predicate of a type. -/
def zeroBody? (synthesis : Synthesis) (type : String) : Option ZeroBody :=
  synthesis.methods.findSome? (Method.zeroOf? type)

/-- Notes an interface unless it is noted already. -/
def noteCapability (known : List String) (capability : String) : List String :=
  if capability ∈ known then known else known ++ [capability]

/-- Adds a copy method. -/
def addCopy (synthesis : Synthesis) (type : String) (family : Family) (body : CopyBody)
    (discovered : Bool) : Synthesis where
  methods := synthesis.methods ++ [⟨type, family, .copy body, discovered⟩]
  capabilities := body.capabilities.foldl noteCapability synthesis.capabilities

/-- Adds a zero predicate. -/
def addZero (synthesis : Synthesis) (type : String) (body : ZeroBody) : Synthesis :=
  { synthesis with
    methods := synthesis.methods ++ [⟨type, .zeroPredicate, .zero body, false⟩] }

/-- The types whose predicates other predicates call. -/
def delegated (synthesis : Synthesis) : List String := synthesis.methods.flatMap Method.delegates

/-- Marks the predicates of types that were not requested and that another predicate calls. -/
def markDiscovered (synthesis : Synthesis) (requested : List String) : Synthesis :=
  { synthesis with
    methods := synthesis.methods.map fun method =>
      if method.family = .zeroPredicate then
        { method with
          discovered := !decide (method.type ∈ requested) &&
            decide (method.type ∈ synthesis.delegated) }
      else method }

/-- Leaves out the methods a test holds for. -/
def drop (synthesis : Synthesis) (test : Method → Bool) : Synthesis :=
  { synthesis with methods := synthesis.methods.filter fun method => !test method }

end Synthesis

end CopySynth
