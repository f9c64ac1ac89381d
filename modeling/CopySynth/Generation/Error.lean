import CopySynth.Generation.Family
import CopySynth.Schema.Definition
import CopySynth.Schema.Error

/-!
# Faults of generation

Why methods cannot be generated, written out, or applied to a value. Each fault keeps its cause;
its text is made in one place.
-/

namespace CopySynth

/-- Why no rule applies to a type. -/
inductive ShapeFault where
  /-- An interface was asked to be copied by itself. -/
  | copyOfCapability
  /-- An anonymous record would need a copy helper, which needs a name. -/
  | unnamedCopy (context : String)
  /-- An anonymous record would need a zero predicate, which needs a name. -/
  | unnamedPredicate (context : String)
  /-- A builtin was asked for a zero predicate. -/
  | predicateOfBuiltin (marker : Marker)
  /-- A copy of a builtin is to be written out. -/
  | bodyOfBuiltin
  /-- A method of this family has a body of another. -/
  | foreignBody (family : Family)
  deriving DecidableEq, Repr

/-- The reason as text. -/
def ShapeFault.reason : ShapeFault → String
  | .copyOfCapability => "capability types are copied through their own clone operation"
  | .unnamedCopy context => s!"{context} must be a named type to carry a copy helper"
  | .unnamedPredicate context => s!"{context} must be a named type to carry a zero predicate"
  | .predicateOfBuiltin marker => s!"no zero predicate for {marker.label} builtins"
  | .bodyOfBuiltin => "builtins are copied by their own mechanism"
  | .foreignBody family => s!"body does not belong to the {family.label} family"

/-- Why a method cannot be applied to a value. -/
inductive EvaluationFault where
  /-- The type has no copy method. -/
  | noCopy (type : String)
  /-- The type has no zero predicate. -/
  | noPredicate (type : String)
  /-- A predicate tests fields of a type that is no record. -/
  | noRecord (type : String)
  /-- A predicate tests a field that the type does not declare. -/
  | undeclaredField (type field : String)
  /-- A value lacks a field. -/
  | missingField (type field : String)
  /-- A value is not of the kind its type asks for. -/
  | shapeMismatch (type : String)
  /-- A value of an interface was expected. -/
  | noSlot (capability : String)
  /-- A value behind an interface has a type that cannot be copied. -/
  | uncopiedVariant (concrete : String)
  /-- A value contains itself. -/
  | endlessValue
  deriving DecidableEq, Repr

/-- The fault as text. -/
def EvaluationFault.text : EvaluationFault → String
  | .noCopy type => s!"no copy generated for '{type}'"
  | .noPredicate type => s!"no zero predicate generated for '{type}'"
  | .noRecord type => s!"'{type}' has field tests but is not a record"
  | .undeclaredField type field => s!"'{type}' declares no field '{field}'"
  | .missingField type field => s!"'{type}' value has no field '{field}'"
  | .shapeMismatch type => s!"value does not match the shape of '{type}'"
  | .noSlot capability => s!"expected a '{capability}' capability slot"
  | .uncopiedVariant concrete => s!"capability variant '{concrete}' has no generated copy"
  | .endlessValue => "value contains itself"

/-- A fault of generation. -/
inductive GenerationError where
  /-- A fault of the type table. -/
  | schema (fault : SchemaError)
  /-- A name stands for nothing. -/
  | unresolvedType (name context : String)
  /-- No rule applies to a type. -/
  | unsupportedShape (type : String) (fault : ShapeFault)
  /-- A type holds itself in place; the path ends with the name it came back to. -/
  | cyclicType (path : List String)
  /-- A family did not finish within its budget. -/
  | nonTerminating (family : Family) (budget : Nat) (chain pending : List String)
  /-- A name cannot be written out. -/
  | invalidIdentifier (name : String)
  /-- A zero expression cannot be written out. -/
  | invalidExpression (text : String)
  /-- A method cannot be applied to a value. -/
  | evaluation (fault : EvaluationFault)
  deriving DecidableEq, Repr

namespace GenerationError

/-- The message of a fault. -/
def message : GenerationError → String
  | schema fault => s!"schema error: {fault.message}"
  | unresolvedType name context => s!"unresolved type '{name}' referenced from {context}"
  | unsupportedShape type fault => s!"unsupported shape for '{type}': {fault.reason}"
  | cyclicType path => s!"cyclic type definition: {showPath path}"
  | nonTerminating family budget chain pending =>
    s!"{family.label} closure did not terminate within {budget} steps along {showPath chain}; " ++
      "pending: " ++ String.intercalate ", " pending
  | invalidIdentifier name => s!"'{name}' cannot be rendered as Rust"
  | invalidExpression text => s!"invalid zero literal '{text}'"
  | evaluation fault => s!"evaluation error: {fault.text}"

/-- A fault met while following names: a missing name and a cycle are faults of their own here. -/
def ofSchema : SchemaError → GenerationError
  | .typeNotFound name context => unresolvedType name context
  | .circularReference path => cyclicType path
  | fault => schema fault

end GenerationError

/-- The result of a step on the table, with its faults as faults of generation. -/
def lifted {α : Type} : Except SchemaError α → Except GenerationError α
  | .ok result => .ok result
  | .error fault => .error (.ofSchema fault)

theorem lifted_eq_ok_iff {α : Type} {step : Except SchemaError α} {result : α} :
    lifted step = .ok result ↔ step = .ok result := by
  cases step <;> simp [lifted]

end CopySynth
