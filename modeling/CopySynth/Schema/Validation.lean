import CopySynth.Code.Language
import CopySynth.Schema.Mention
import CopySynth.Schema.Table

/-!
# The check of a table

A table passes when every name it mentions is defined, when the names that become identifiers are
identifiers, and when no type holds itself in place. The first fault found, in this order of
questions and in the order of the entries, is the one reported.
-/

namespace CopySynth.Table

/-- The first mention of a name that is not defined. -/
def firstDangling (table : Table) : Option Mention :=
  (table.entries.flatMap fun entry => entry.2.references entry.1).find? fun mention =>
    !table.contains mention.name

/-- The names that are written out as identifiers, in order: builtins are exempt, since they are
written out as types. -/
def identifierNames (table : Table) : List String :=
  table.entries.flatMap fun entry =>
    if entry.2.isBuiltin then [] else entry.1 :: entry.2.fieldNames

/-- The first name that should be an identifier and is none. -/
def firstMisnamed (table : Table) (language : Code.Language) : Option String :=
  table.identifierNames.find? fun name => !language.isIdentifier name

/-- The part of a path from the first `name` on, closed by `name`. -/
def closedPath (path : List String) (name : String) : List String :=
  (path ++ [name]).dropWhile (· ≠ name)

/-- Visits a type and, depth first, the types it holds in place. `path` leads to it from outside;
the result adds to `finished` the types that are known not to hold themselves. -/
def visit (table : Table) :
    Nat → List String → List String → String → Except SchemaError (List String)
  | 0, path, _, name => .error (.circularReference (closedPath path name))
  | steps + 1, path, finished, name =>
    if name ∈ finished then .ok finished
    else if name ∈ path then .error (.circularReference (closedPath path name))
    else match table.get? name with
      | none => .error (.typeNotFound name "containment check")
      | some type => do
        let inside ← (type.containedNames name).foldlM (table.visit steps (path ++ [name])) finished
        return name :: inside

/-- Checks that no type holds itself in place; lists the types found sound. A path holds distinct
names of the table, which bounds its length. -/
def checkContainment (table : Table) : Except SchemaError (List String) :=
  table.names.foldlM (table.visit (table.size + 1) []) []

/-- Checks a table. -/
def validate (table : Table) (language : Code.Language) : Except SchemaError Unit :=
  match table.firstDangling with
  | some mention => .error (.typeNotFound mention.name mention.context)
  | none =>
    match table.firstMisnamed language with
    | some name => .error (.invalidIdentifier name)
    | none => table.checkContainment.map fun _ => ()

end CopySynth.Table
