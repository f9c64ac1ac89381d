import CopySynth.Proofs.TableCheck

/-!
# Names that a table spells

A table spells the names of its entries and the field names of its records. A record stands in an
entry of its own or anonymously in a field or as the element of a sequence, at any depth. The check
of a table looks at the names of all entries that are no builtins, and at the field names of the
records in entries, with those of the anonymous records in their fields. It does not look at the
elements of sequences, so an anonymous record there may spell a name that is no identifier.
-/

namespace CopySynth

/-- A reference spells the field names of an anonymous record, at any depth. -/
inductive Ref.Spells : Ref → String → Prop
  | field {fields field} (hf : field ∈ fields) : Spells (.inline fields) field.1
  | inside {fields field name} (hf : field ∈ fields) (h : Spells field.2 name) :
      Spells (.inline fields) name

/-- What a sequence consists of. -/
def Shape.element? : Shape → Option Ref
  | .fixed _ element | .dynamic element => some element
  | .builtin _ | .record _ => none

/-- A definition spells the field names of the records that stand in it: a record spells what it
would spell anonymously, and a sequence what its element spells. -/
inductive Definition.Spells : Definition → String → Prop
  | record {fields name} (h : (Ref.inline fields).Spells name) :
      Spells (.type (.record fields)) name
  | element {shape element name} (he : shape.element? = some element) (h : element.Spells name) :
      Spells (.type shape) name

mutual
theorem Ref.mem_fieldNames_iff (name : String) :
    (ref : Ref) → (name ∈ ref.fieldNames ↔ ref.Spells name)
  | .named _ => by
    rw [fieldNames]
    constructor
    · exact fun h => absurd h List.not_mem_nil
    · rintro ⟨⟩
  | .inline fields => by
    rw [fieldNames, Ref.mem_namesInFields_iff name fields]
    constructor
    · rintro ⟨field, hf, rfl | h⟩
      · exact .field hf
      · exact .inside hf h
    · intro h
      cases h with
      | field hf => exact ⟨_, hf, .inl rfl⟩
      | inside hf h => exact ⟨_, hf, .inr h⟩

theorem Ref.mem_namesInFields_iff (name : String) : (fields : List (String × Ref)) →
    (name ∈ namesInFields fields ↔ ∃ field ∈ fields, name = field.1 ∨ field.2.Spells name)
  | [] => by simp [namesInFields]
  | (first, ref) :: rest => by
    rw [namesInFields, List.mem_cons, List.mem_append, List.exists_mem_cons_iff,
      Ref.mem_fieldNames_iff name ref, Ref.mem_namesInFields_iff name rest, or_assoc]
end

/-- The field names that the element of a sequence spells, outer names first. -/
def Definition.elementNames : Definition → List String
  | .aliasOf _ => []
  | .type shape => (shape.element?.map Ref.fieldNames).getD []

theorem Definition.mem_elementNames_iff {type : Definition} {name : String} :
    name ∈ type.elementNames ↔
      ∃ shape element, type = .type shape ∧ shape.element? = some element ∧
        element.Spells name := by
  cases type with
  | aliasOf => simp [elementNames]
  | type shape =>
    rw [elementNames]
    cases he : shape.element? with
    | none => simp [he]
    | some element => simp [he, Ref.mem_fieldNames_iff]

namespace Table

/-- The names of all entries but builtins are identifiers. -/
def EntriesNamed (table : Table) (language : Code.Language) : Prop :=
  ∀ owner type, table.get? owner = some type → type.isBuiltin = false → language.isIdentifier owner

/-- All field names that the record of an entry spells are identifiers. -/
def RecordsNamed (table : Table) (language : Code.Language) : Prop :=
  ∀ owner fields name, table.get? owner = some (.type (.record fields)) →
    (Ref.inline fields).Spells name → language.isIdentifier name

/-- All field names that the element of a sequence spells are identifiers. -/
def ElementsNamed (table : Table) (language : Code.Language) : Prop :=
  ∀ owner shape element name, table.get? owner = some (.type shape) →
    shape.element? = some element → element.Spells name → language.isIdentifier name

variable {table : Table} {language : Code.Language}

theorem elementsNamed_iff : table.ElementsNamed language ↔
    ∀ entry ∈ table.entries, ∀ name ∈ entry.2.elementNames, language.isIdentifier name := by
  constructor
  · rintro h ⟨owner, type⟩ he name hn
    obtain ⟨shape, element, rfl, helement, hs⟩ := Definition.mem_elementNames_iff.mp hn
    exact h owner shape element name (get?_eq_some_iff.mpr he) helement hs
  · intro h owner shape element name hg he hs
    exact h _ (get?_eq_some_iff.mp hg) name
      (Definition.mem_elementNames_iff.mpr ⟨shape, element, rfl, he, hs⟩)

instance (table : Table) (language : Code.Language) : Decidable (table.ElementsNamed language) :=
  decidable_of_iff _ elementsNamed_iff.symm

theorem mem_identifierNames_iff {name : String} : name ∈ table.identifierNames ↔
    ∃ owner type, table.get? owner = some type ∧ type.isBuiltin = false ∧
      (name = owner ∨ ∃ fields, type = .type (.record fields) ∧
        (Ref.inline fields).Spells name) := by
  have hfields (type : Definition) : name ∈ type.fieldNames ↔
      ∃ fields, type = .type (.record fields) ∧ (Ref.inline fields).Spells name := by
    cases type with
    | aliasOf => simp [Definition.fieldNames]
    | type shape =>
      cases shape with
      | builtin | fixed | dynamic => simp [Definition.fieldNames]
      | record fields =>
        have hiff := Ref.mem_fieldNames_iff name (.inline fields)
        rw [Ref.fieldNames] at hiff
        simp [Definition.fieldNames, hiff]
  rw [identifierNames, List.mem_flatMap]
  constructor
  · rintro ⟨⟨owner, type⟩, he, hn⟩
    dsimp only at hn
    split at hn
    · exact absurd hn List.not_mem_nil
    · rename_i hb
      refine ⟨owner, type, get?_eq_some_iff.mpr he, by simpa using hb, ?_⟩
      exact (List.mem_cons.mp hn).imp_right (hfields type).mp
  · rintro ⟨owner, type, hg, hb, hn⟩
    refine ⟨_, get?_eq_some_iff.mp hg, ?_⟩
    dsimp only
    rw [hb, if_neg (by decide)]
    exact List.mem_cons.mpr (hn.imp_right (hfields type).mpr)

/-- What the second question of the check is about. -/
theorem firstMisnamed_eq_none_iff_named :
    table.firstMisnamed language = none ↔
      table.EntriesNamed language ∧ table.RecordsNamed language := by
  rw [firstMisnamed_eq_none_iff]
  constructor
  · intro h
    refine ⟨fun owner type hg hb => ?_, fun owner fields name hg hs => ?_⟩
    · exact h owner (mem_identifierNames_iff.mpr ⟨owner, type, hg, hb, .inl rfl⟩)
    · exact h name (mem_identifierNames_iff.mpr ⟨owner, _, hg, rfl, .inr ⟨fields, rfl, hs⟩⟩)
  · rintro ⟨hentries, hrecords⟩ name hn
    obtain ⟨owner, type, hg, hb, rfl | ⟨fields, rfl, hs⟩⟩ := mem_identifierNames_iff.mp hn
    · exact hentries name type hg hb
    · exact hrecords owner fields name hg hs

/-- A closed table without circles passes its check exactly when the names of its entries other than
builtins are identifiers, and the field names of the records in entries, with those of the anonymous
records in their fields at any depth. Then all field names of the table are identifiers exactly when
those in the elements of sequences are. -/
theorem validate_spelledNames (table : Table) (language : Code.Language) :
    (table.validate language = .ok () ↔
      table.Closed ∧ table.Acyclic ∧ table.EntriesNamed language ∧ table.RecordsNamed language) ∧
    (table.validate language = .ok () →
      ((∀ owner type name, table.get? owner = some type → type.Spells name →
        language.isIdentifier name) ↔ table.ElementsNamed language)) := by
  have hiff : table.validate language = .ok () ↔
      table.Closed ∧ table.Acyclic ∧ table.EntriesNamed language ∧ table.RecordsNamed language := by
    rw [validate_eq_ok_iff, firstMisnamed_eq_none_iff_named, and_comm (b := table.Acyclic)]
  refine ⟨hiff, fun hv => ?_⟩
  obtain ⟨_, _, _, hrecords⟩ := hiff.mp hv
  constructor
  · intro h owner shape element name hg he hs
    exact h owner _ name hg (.element he hs)
  · intro h owner type name hg hs
    cases hs with
    | record hs => exact hrecords owner _ name hg hs
    | element he hs => exact h owner _ _ name hg he hs

/-- Anonymous records in a field of a field and as the element of a sequence. -/
def canvas : Table where
  entries := [("u8", .type (.builtin { zero := some "0" })),
    ("Pixel", .type (.record [("at", .inline [("x", .named "u8"),
      ("y", .inline [("depth", .named "u8")])])])),
    ("Rows", .type (.dynamic (.inline [("width", .named "u8")])))]
  distinct_names := by decide
  distinct_fields := by
    simp [Definition.Distinct, Shape.Distinct, Ref.FieldsDistinct, Ref.Distinct]

theorem validate_spelledNames_canvas :
    canvas.validate Reader.language = .ok () ∧ canvas.Acyclic ∧
    canvas.EntriesNamed Reader.language ∧ canvas.RecordsNamed Reader.language ∧
      ∀ owner type name, canvas.get? owner = some type → type.Spells name →
        Reader.language.isIdentifier name := by
  have hv : canvas.validate Reader.language = .ok () := by decide +kernel
  obtain ⟨hiff, hall⟩ := validate_spelledNames canvas Reader.language
  obtain ⟨_, hnamed⟩ := hiff.mp hv
  exact ⟨hv, hnamed.1, hnamed.2.1, hnamed.2.2, (hall hv).mpr (by decide +kernel)⟩

/-- Sequences, one of them of fixed length, of anonymous records whose fields have no names that
could be written out. -/
def grid : Table where
  entries := [("u8", .type (.builtin { zero := some "0" })),
    ("Grid", .type (.fixed 2 (.inline [("1st", .named "u8")]))),
    ("Rows", .type (.dynamic (.inline [("row", .inline [("no name", .named "u8")])])))]
  distinct_names := by decide
  distinct_fields := by
    simp [Definition.Distinct, Shape.Distinct, Ref.FieldsDistinct, Ref.Distinct]

/-- The elements of both sequences spell names that are no identifiers, and the check passes. -/
theorem validate_grid :
    grid.validate Reader.language = .ok () ∧
      (∃ type, grid.get? "Grid" = some type ∧ type.Spells "1st") ∧
      (∃ type, grid.get? "Rows" = some type ∧ type.Spells "no name") ∧
      Reader.language.isIdentifier "1st" = false ∧
      Reader.language.isIdentifier "no name" = false := by
  refine ⟨by decide +kernel, ⟨_, rfl, .element rfl (.field List.mem_cons_self)⟩,
    ⟨_, rfl, .element rfl (.inside List.mem_cons_self (.field List.mem_cons_self))⟩, ?_, ?_⟩
  · decide +kernel
  · decide +kernel

end Table

end CopySynth
