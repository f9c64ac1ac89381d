/-!
# Faults of a type table

Why a definition is refused, a name cannot be followed, or a table does not pass its check.
-/

namespace CopySynth

/-- A fault of a type table. -/
inductive SchemaError where
  /-- A name stands for nothing. -/
  | typeNotFound (name context : String)
  /-- A name is given two different definitions. -/
  | duplicateDefinition (name : String)
  /-- A walk came back to a name it had passed; the path ends with that name. -/
  | circularReference (path : List String)
  /-- A name is no identifier. -/
  | invalidIdentifier (name : String)
  deriving DecidableEq, Repr

/-- A path of names as one text. -/
def showPath (path : List String) : String := String.intercalate " -> " path

/-- The message of a fault. -/
def SchemaError.message : SchemaError → String
  | .typeNotFound name context => s!"type '{name}' not found (referenced from {context})"
  | .duplicateDefinition name => s!"duplicate type definition: '{name}'"
  | .circularReference path => s!"circular type reference detected: {showPath path}"
  | .invalidIdentifier name => s!"'{name}' is not a valid identifier"

end CopySynth
