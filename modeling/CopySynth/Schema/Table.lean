import CopySynth.Schema.Definition
import CopySynth.Schema.Error

/-!
# The type table

A closed world of types: each name has one definition, and entries keep the order in which they
were added, so that every walk over a table is reproducible. Records of a table have distinct field
names at every depth.
-/

namespace CopySynth

/-- Types by name, in the order they were added. -/
structure Table where
  /-- Names with their definitions. -/
  entries : List (String × Definition)
  /-- Each name stands once. -/
  distinct_names : (Fields.names entries).Nodup
  /-- Each record's field names are distinct. -/
  distinct_fields : ∀ entry ∈ entries, entry.2.Distinct

namespace Table

/-- The table without types. -/
def empty : Table where
  entries := []
  distinct_names := by simp
  distinct_fields := by simp

/-- The names, in order. -/
def names (table : Table) : List String := Fields.names table.entries

/-- The number of types. -/
def size (table : Table) : Nat := table.entries.length

/-- The definition of a name. -/
def get? (table : Table) (name : String) : Option Definition := Fields.get? table.entries name

/-- Whether a name is defined. -/
def contains (table : Table) (name : String) : Bool := (table.get? name).isSome

/-- The definition of a name that is used in this context. -/
def lookup (table : Table) (name context : String) : Except SchemaError Definition :=
  match table.get? name with
  | some type => .ok type
  | none => .error (.typeNotFound name context)

theorem get?_isSome_iff (table : Table) (name : String) :
    (table.get? name).isSome ↔ name ∈ table.names :=
  Fields.get?_isSome_iff table.entries name

theorem mem_names_of_get? {table : Table} {name : String} {type : Definition}
    (h : table.get? name = some type) : name ∈ table.names := by
  rw [← get?_isSome_iff, h]
  rfl

theorem contains_iff (table : Table) (name : String) :
    table.contains name ↔ name ∈ table.names :=
  table.get?_isSome_iff name

theorem get?_eq_some_iff {table : Table} {name : String} {type : Definition} :
    table.get? name = some type ↔ (name, type) ∈ table.entries :=
  ⟨Fields.mem_of_get?, Fields.get?_of_mem table.distinct_names⟩

theorem names_length (table : Table) : table.names.length = table.size := by
  simp [names, size, Fields.names]

/-- Adds a name at the end. -/
def add (table : Table) (name : String) (type : Definition) (fresh : table.get? name = none)
    (distinct : type.Distinct) : Table where
  entries := table.entries ++ [(name, type)]
  distinct_names := by
    have absent : name ∉ Fields.names table.entries := (Fields.get?_eq_none_iff _ _).1 fresh
    simp only [Fields.names, List.map_append, List.map_cons, List.map_nil, List.nodup_append]
    refine ⟨table.distinct_names, by simp, ?_⟩
    rintro a ha b hb rfl
    exact absent (List.mem_singleton.1 hb ▸ ha)
  distinct_fields := by
    intro entry h
    rcases List.mem_append.1 h with h | h
    · exact table.distinct_fields entry h
    · exact List.mem_singleton.1 h ▸ distinct

/-- Defines a name. Repeated field names are merged first; defining a name again is accepted when
both definitions are the same up to the order of fields, and the first one stays. -/
def insert (table : Table) (name : String) (type : Definition) : Except SchemaError Table :=
  match known : table.get? name with
  | some old => if old.same type.merged then .ok table else .error (.duplicateDefinition name)
  | none => .ok (table.add name type.merged known type.distinct_merged)

/-- A plain value with this zero expression. -/
private def valueType (name zero : String) : String × Definition :=
  (name, .type (.builtin { zero := some zero }))

/-- The types every table may start from, each with its zero expression. -/
def primitives : Table where
  entries := [valueType "bool" "false", valueType "u8" "0", valueType "i32" "0",
    valueType "i64" "0", valueType "f32" "0.0", valueType "f64" "0.0", valueType "String" "\"\""]
  distinct_names := by decide
  distinct_fields := by simp [valueType, Definition.Distinct, Shape.Distinct]

end Table

end CopySynth
