import CopySynth.Copy.Synthesis
import CopySynth.Proofs.HeldTypes
import CopySynth.Schema.Validation
import CopySynth.Zero.Synthesis

/-!
# Replacing the names in definitions

The names in the fields and elements of a table are replaced, at any depth of its anonymous records.
Alias entries keep their targets, so aliases lead where they led before; the kinds of the types, the
names of their fields and the order of the entries stay as they are.
-/

namespace CopySynth

theorem Fields.get?_map {α β : Type} (g : α → β) (fields : Fields α) (name : String) :
    Fields.get? (fields.map fun field => (field.1, g field.2)) name =
      (fields.get? name).map g := by
  induction fields with
  | nil => rfl
  | cons field rest ih =>
    obtain ⟨first, value⟩ := field
    rw [List.map_cons, get?_cons, get?_cons, ih]
    split <;> rfl

namespace Ref

mutual
/-- Replaces the names that a reference uses. -/
def rename (f : String → String) : Ref → Ref
  | .named name => .named (f name)
  | .inline fields => .inline (renameFields f fields)

/-- Replaces the names that the types of fields use. -/
def renameFields (f : String → String) : List (String × Ref) → List (String × Ref)
  | [] => []
  | (field, ref) :: rest => (field, ref.rename f) :: renameFields f rest
end

variable (f : String → String)

theorem renameFields_eq_map (fields : List (String × Ref)) :
    renameFields f fields = fields.map fun field => (field.1, field.2.rename f) := by
  induction fields with
  | nil => rfl
  | cons field rest ih =>
    obtain ⟨name, ref⟩ := field
    rw [renameFields, ih, List.map_cons]

theorem name?_rename (ref : Ref) : (ref.rename f).name? = ref.name?.map f := by
  cases ref <;> rfl

theorem names_renameFields (fields : List (String × Ref)) :
    Fields.names (renameFields f fields) = Fields.names fields := by
  rw [renameFields_eq_map, Fields.names, List.map_map]
  rfl

mutual
theorem fieldNames_rename : (ref : Ref) → (ref.rename f).fieldNames = ref.fieldNames
  | .named _ => rfl
  | .inline fields => namesInFields_renameFields fields

theorem namesInFields_renameFields : (fields : List (String × Ref)) →
    namesInFields (renameFields f fields) = namesInFields fields
  | [] => rfl
  | (field, ref) :: rest => by
    rw [renameFields, namesInFields, namesInFields, fieldNames_rename ref,
      namesInFields_renameFields rest]
end

mutual
theorem distinct_rename : (ref : Ref) → ref.Distinct → (ref.rename f).Distinct
  | .named _, _ => trivial
  | .inline fields, ⟨hn, hd⟩ => ⟨by rw [names_renameFields]; exact hn,
      fieldsDistinct_renameFields fields hd⟩

theorem fieldsDistinct_renameFields : (fields : List (String × Ref)) → FieldsDistinct fields →
    FieldsDistinct (renameFields f fields)
  | [], _ => trivial
  | (_, ref) :: rest, ⟨hr, hd⟩ => ⟨distinct_rename ref hr, fieldsDistinct_renameFields rest hd⟩
end

mutual
theorem uses_rename {name : String} : (ref : Ref) →
    ((ref.rename f).Uses name ↔ ∃ used, ref.Uses used ∧ f used = name)
  | .named other => by
    constructor
    · rintro ⟨⟩
      exact ⟨other, .named, rfl⟩
    · rintro ⟨_, ⟨⟩, rfl⟩
      exact .named
  | .inline fields => by
    constructor
    · intro h
      cases h with
      | field hf h =>
        obtain ⟨⟨field, ref⟩, hf, used, hu, he⟩ :=
          (exists_uses_renameFields fields).mp ⟨_, hf, h⟩
        exact ⟨used, .field hf hu, he⟩
    · rintro ⟨used, hu, he⟩
      cases hu with
      | field hf hu =>
        obtain ⟨⟨field, ref⟩, hf, h⟩ := (exists_uses_renameFields fields).mpr ⟨_, hf, used, hu, he⟩
        exact .field hf h

theorem exists_uses_renameFields {name : String} : (fields : List (String × Ref)) →
    ((∃ field ∈ renameFields f fields, field.2.Uses name) ↔
      ∃ field ∈ fields, ∃ used, field.2.Uses used ∧ f used = name)
  | [] => by simp [renameFields]
  | (field, ref) :: rest => by
    rw [renameFields, List.exists_mem_cons_iff, List.exists_mem_cons_iff, uses_rename ref,
      exists_uses_renameFields rest]
end

end Ref

namespace Shape

/-- Replaces the names that a type uses. -/
def rename (f : String → String) : Shape → Shape
  | .builtin type => .builtin type
  | .fixed length element => .fixed length (element.rename f)
  | .dynamic element => .dynamic (element.rename f)
  | .record fields => .record (Ref.renameFields f fields)

variable (f : String → String) (shape : Shape)

@[simp] theorem isBuiltin_rename : (shape.rename f).isBuiltin = shape.isBuiltin := by
  cases shape <;> rfl

@[simp] theorem isCapability_rename : (shape.rename f).isCapability = shape.isCapability := by
  cases shape <;> rfl

@[simp] theorem zeroLiteral?_rename : (shape.rename f).zeroLiteral? = shape.zeroLiteral? := by
  cases shape <;> rfl

@[simp] theorem hasPredicate_rename : (shape.rename f).hasPredicate = shape.hasPredicate := by
  cases shape <;> rfl

theorem slots_rename :
    (shape.rename f).slots = shape.slots.map fun slot => (slot.1, slot.2.rename f) := by
  cases shape with
  | builtin | fixed | dynamic => rfl
  | record fields => exact Ref.renameFields_eq_map f fields

theorem testedSlots_rename (owner : String) :
    (shape.rename f).testedSlots owner =
      (shape.testedSlots owner).map fun slot => (slot.1, slot.2.rename f) := by
  cases shape with
  | builtin | fixed | dynamic => rfl
  | record fields =>
    rw [rename, testedSlots, testedSlots, Ref.renameFields_eq_map, List.map_map, List.map_map]
    rfl

end Shape

namespace Definition

/-- Replaces the names that a type uses; an alias keeps its target. -/
def rename (f : String → String) : Definition → Definition
  | .aliasOf target => .aliasOf target
  | .type shape => .type (shape.rename f)

variable (f : String → String)

@[simp] theorem isBuiltin_rename (type : Definition) :
    (type.rename f).isBuiltin = type.isBuiltin := by
  cases type with
  | aliasOf => rfl
  | type shape => exact shape.isBuiltin_rename f

theorem ownsStorage_rename (type : Definition) :
    (type.rename f).ownsStorage = type.ownsStorage := by
  cases type with
  | aliasOf => rfl
  | type shape => cases shape <;> rfl

theorem fieldNames_rename (type : Definition) : (type.rename f).fieldNames = type.fieldNames := by
  cases type with
  | aliasOf => rfl
  | type shape =>
    cases shape with
    | builtin | fixed | dynamic => rfl
    | record fields => exact Ref.namesInFields_renameFields f fields

theorem distinct_rename {type : Definition} (h : type.Distinct) : (type.rename f).Distinct := by
  cases type with
  | aliasOf => trivial
  | type shape =>
    cases shape with
    | builtin => trivial
    | fixed _ element | dynamic element => exact element.distinct_rename f h
    | record fields => exact Ref.distinct_rename f (.inline fields) h

theorem uses_rename {shape : Shape} {name : String} :
    (Definition.type (shape.rename f)).Uses name ↔
      ∃ used, (Definition.type shape).Uses used ∧ f used = name := by
  rw [uses_iff_exists_slot, shape.slots_rename f]
  constructor
  · rintro ⟨_, hm, h⟩
    obtain ⟨slot, hs, rfl⟩ := List.mem_map.mp hm
    obtain ⟨used, hu, he⟩ := (slot.2.uses_rename f).mp h
    exact ⟨used, uses_iff_exists_slot.mpr ⟨slot, hs, hu⟩, he⟩
  · rintro ⟨used, hu, he⟩
    obtain ⟨slot, hs, hu⟩ := uses_iff_exists_slot.mp hu
    exact ⟨_, List.mem_map_of_mem hs, (slot.2.uses_rename f).mpr ⟨used, hu, he⟩⟩

theorem holds_rename {shape : Shape} {name : String} :
    (Definition.type (shape.rename f)).Holds name ↔
      ∃ used, (Definition.type shape).Holds used ∧ f used = name := by
  cases shape with
  | builtin | dynamic =>
    constructor
    · rintro ⟨⟩
    · rintro ⟨_, ⟨⟩, _⟩
  | fixed length element =>
    constructor
    · rintro ⟨⟩
      rename_i h
      obtain ⟨used, hu, he⟩ := (element.uses_rename f).mp h
      exact ⟨used, .fixed hu, he⟩
    · rintro ⟨used, ⟨⟩, he⟩
      rename_i h
      exact .fixed ((element.uses_rename f).mpr ⟨used, h, he⟩)
  | record fields =>
    constructor
    · rintro ⟨⟩
      rename_i hf h
      obtain ⟨field, hf, used, hu, he⟩ :=
        (Ref.exists_uses_renameFields f fields).mp ⟨_, hf, h⟩
      exact ⟨used, .field hf hu, he⟩
    · rintro ⟨used, ⟨⟩, he⟩
      rename_i hf h
      obtain ⟨field, hf, h⟩ := (Ref.exists_uses_renameFields f fields).mpr ⟨_, hf, used, h, he⟩
      exact .field hf h

end Definition

namespace Table

/-- Replaces the names in the fields and elements of a table. -/
def renamed (table : Table) (f : String → String) : Table where
  entries := table.entries.map fun entry => (entry.1, entry.2.rename f)
  distinct_names := by
    rw [Fields.names, List.map_map]
    exact table.distinct_names
  distinct_fields := by
    intro entry he
    obtain ⟨old, ho, rfl⟩ := List.mem_map.mp he
    exact Definition.distinct_rename f (table.distinct_fields old ho)

variable (table : Table) (f : String → String)

@[simp] theorem names_renamed : (table.renamed f).names = table.names := by
  rw [names, renamed, Fields.names, List.map_map]
  rfl

@[simp] theorem size_renamed : (table.renamed f).size = table.size := by
  rw [size, renamed, List.length_map, size]

theorem get?_renamed (name : String) :
    (table.renamed f).get? name = (table.get? name).map (Definition.rename f) :=
  Fields.get?_map (Definition.rename f) table.entries name

theorem resolveFrom_renamed (context : String) (steps : Nat) (passed : List String)
    (name : String) :
    (table.renamed f).resolveFrom context steps passed name =
      (table.resolveFrom context steps passed name).map
        fun found => (found.1, found.2.rename f) := by
  induction steps generalizing passed name with
  | zero => rfl
  | succ steps ih =>
    rw [resolveFrom, resolveFrom, get?_renamed]
    cases table.get? name with
    | none => rfl
    | some type =>
      cases type with
      | type shape => rfl
      | aliasOf target =>
        dsimp only [Option.map_some, Definition.rename]
        split
        · rfl
        · exact ih _ _

theorem resolve_renamed (name context : String) :
    (table.renamed f).resolve name context =
      (table.resolve name context).map fun found => (found.1, found.2.rename f) := by
  rw [resolve, resolve, size_renamed, resolveFrom_renamed]

theorem identifierNames_renamed :
    (table.renamed f).identifierNames = table.identifierNames := by
  rw [identifierNames, identifierNames, renamed, List.flatMap_map]
  refine List.flatMap_congr fun entry _ => ?_
  rw [Definition.isBuiltin_rename, Definition.fieldNames_rename]

end Table

end CopySynth
