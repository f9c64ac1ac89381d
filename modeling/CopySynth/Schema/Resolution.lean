import CopySynth.Schema.Table

/-!
# Following aliases

The canonical type of a name is the first entry on its chain of aliases that is no alias. The walk
keeps the aliases it has passed; a table has finitely many names, so one more step than it has
entries always settles the chain.
-/

namespace CopySynth.Table

/-- Follows aliases from `name`; `passed` holds the aliases met so far, oldest first. -/
def resolveFrom (table : Table) (context : String) :
    Nat → List String → String → Except SchemaError (String × Shape)
  | 0, passed, name => .error (.circularReference (passed ++ [name]))
  | steps + 1, passed, name =>
    match table.get? name with
    | none => .error (.typeNotFound name context)
    | some (.aliasOf target) =>
      if name ∈ passed then .error (.circularReference (passed ++ [name]))
      else table.resolveFrom context steps (passed ++ [name]) target
    | some (.type shape) => .ok (name, shape)

/-- The canonical name behind a name, with its type. -/
def resolve (table : Table) (name context : String) :
    Except SchemaError (String × Shape) :=
  table.resolveFrom context (table.size + 1) [] name

/-- The canonical name behind a name, if there is one. -/
def canonical? (table : Table) (name : String) : Option String :=
  match table.resolve name "" with
  | .ok (canonical, _) => some canonical
  | .error _ => none

/-- A name that is no alias is its own canonical name. -/
theorem resolve_of_get? {table : Table} {name : String} {shape : Shape} (context : String)
    (known : table.get? name = some (.type shape)) :
    table.resolve name context = .ok (name, shape) := by
  simp [resolve, resolveFrom, known]

end CopySynth.Table
