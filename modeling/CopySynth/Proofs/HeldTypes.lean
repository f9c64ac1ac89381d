import CopySynth.Copy.Synthesis
import CopySynth.Proofs.Aliases
import CopySynth.Schema.Mention
import Mathlib.Logic.Relation

/-!
# The types that a type uses and holds

A reference uses the name it consists of, or the names that the fields of an anonymous record use.
A type uses all names of its definition; it holds in place those that it uses other than as the
element of a growable sequence.
-/

namespace CopySynth

/-- A reference uses a name: it is that name, or an anonymous record of which a field uses it. -/
inductive Ref.Uses : Ref → String → Prop
  | named {name} : Uses (.named name) name
  | field {fields field ref name} (hf : (field, ref) ∈ fields) (h : Uses ref name) :
      Uses (.inline fields) name

/-- A definition uses a name: an alias its target, all other types what their element or one of
their fields uses. -/
inductive Definition.Uses : Definition → String → Prop
  | target {name} : Uses (.aliasOf name) name
  | fixed {length element name} (h : element.Uses name) : Uses (.type (.fixed length element)) name
  | dynamic {element name} (h : element.Uses name) : Uses (.type (.dynamic element)) name
  | field {fields field ref name} (hf : (field, ref) ∈ fields) (h : ref.Uses name) :
      Uses (.type (.record fields)) name

/-- A definition holds a name in place: a growable sequence and a builtin hold nothing. -/
inductive Definition.Holds : Definition → String → Prop
  | target {name} : Holds (.aliasOf name) name
  | fixed {length element name} (h : element.Uses name) : Holds (.type (.fixed length element)) name
  | field {fields field ref name} (hf : (field, ref) ∈ fields) (h : ref.Uses name) :
      Holds (.type (.record fields)) name

mutual
/-- The words that say where a reference stands do not matter to which names it uses. -/
theorem Ref.uses_iff (context name : String) :
    (ref : Ref) → (ref.Uses name ↔ name ∈ (ref.mentions context).map Mention.name)
  | .named other => by
    rw [mentions, List.map_singleton, List.mem_singleton]
    constructor
    · rintro ⟨⟩
      rfl
    · rintro rfl
      exact .named
  | .inline fields => by
    rw [mentions, ← Ref.exists_uses_iff context name fields]
    constructor
    · intro h
      cases h with
      | field hf h => exact ⟨_, hf, h⟩
    · rintro ⟨⟨field, ref⟩, hf, h⟩
      exact .field hf h

/-- A field uses a name exactly when the fields mention it. -/
theorem Ref.exists_uses_iff (owner name : String) : (fields : List (String × Ref)) →
    ((∃ field ∈ fields, field.2.Uses name) ↔
      name ∈ (fieldMentions owner fields).map Mention.name)
  | [] => by simp [fieldMentions]
  | (field, ref) :: rest => by
    rw [fieldMentions, List.map_append, List.mem_append, List.exists_mem_cons_iff,
      Ref.uses_iff (fieldContext field owner) name ref, Ref.exists_uses_iff owner name rest]
end

theorem Ref.forall_mentions_iff {context : String} (ref : Ref) (P : String → Prop) :
    (∀ mention ∈ ref.mentions context, P mention.name) ↔ ∀ name, ref.Uses name → P name := by
  simp only [Ref.uses_iff context, List.mem_map, forall_exists_index, and_imp,
    forall_apply_eq_imp_iff₂]

theorem Definition.uses_iff (owner name : String) (type : Definition) :
    type.Uses name ↔ name ∈ (type.references owner).map Mention.name := by
  cases type with
  | aliasOf target =>
    rw [references, List.map_singleton, List.mem_singleton]
    constructor
    · rintro ⟨⟩
      rfl
    · rintro rfl
      exact .target
  | type shape =>
    cases shape with
    | builtin =>
      constructor
      · rintro ⟨⟩
      · exact fun h => absurd h List.not_mem_nil
    | fixed length element =>
      rw [references, Shape.references, ← Ref.uses_iff]
      exact ⟨fun h => by cases h; assumption, .fixed⟩
    | dynamic element =>
      rw [references, Shape.references, ← Ref.uses_iff]
      exact ⟨fun h => by cases h; assumption, .dynamic⟩
    | record fields =>
      rw [references, Shape.references, ← Ref.exists_uses_iff]
      constructor
      · intro h
        cases h with
        | field hf h => exact ⟨_, hf, h⟩
      · rintro ⟨⟨field, ref⟩, hf, h⟩
        exact .field hf h

theorem Definition.holds_iff (owner name : String) (type : Definition) :
    type.Holds name ↔ name ∈ type.containedNames owner := by
  cases type with
  | aliasOf target =>
    rw [containedNames, contained, List.map_singleton, List.mem_singleton]
    constructor
    · rintro ⟨⟩
      rfl
    · rintro rfl
      exact .target
  | type shape =>
    cases shape with
    | builtin | dynamic =>
      constructor
      · rintro ⟨⟩
      · exact fun h => absurd h List.not_mem_nil
    | fixed length element =>
      rw [containedNames, contained, Shape.contained, ← Ref.uses_iff]
      exact ⟨fun h => by cases h; assumption, .fixed⟩
    | record fields =>
      rw [containedNames, contained, Shape.contained, ← Ref.exists_uses_iff]
      constructor
      · intro h
        cases h with
        | field hf h => exact ⟨_, hf, h⟩
      · rintro ⟨⟨field, ref⟩, hf, h⟩
        exact .field hf h

/-- A type uses what its constituents use. -/
theorem Definition.uses_iff_exists_slot {shape : Shape} {name : String} :
    (Definition.type shape).Uses name ↔ ∃ slot ∈ shape.slots, slot.2.Uses name := by
  cases shape with
  | builtin =>
    constructor
    · rintro ⟨⟩
    · rintro ⟨slot, hs, _⟩
      exact absurd hs List.not_mem_nil
  | fixed | dynamic =>
    constructor
    · intro h
      cases h
      exact ⟨_, List.mem_singleton_self _, by assumption⟩
    · rintro ⟨slot, hs, h⟩
      cases List.mem_singleton.mp hs
      constructor
      exact h
  | record fields =>
    constructor
    · intro h
      cases h with
      | field hf h => exact ⟨_, hf, h⟩
    · rintro ⟨slot, hs, h⟩
      exact .field hs h

theorem Definition.Holds.uses {type : Definition} {name : String} (h : type.Holds name) :
    type.Uses name := by
  cases h with
  | target => exact .target
  | fixed h => exact .fixed h
  | field hf h => exact .field hf h

namespace Table

/-- A type of the table holds another in place. -/
def Holds (table : Table) (owner part : String) : Prop :=
  ∃ type, table.get? owner = some type ∧ type.Holds part

/-- Every name that a definition of the table uses is defined. -/
def Closed (table : Table) : Prop :=
  ∀ owner type name, table.get? owner = some type → type.Uses name → name ∈ table.names

/-- No type of the table holds itself in place, neither directly nor through others. -/
def Acyclic (table : Table) : Prop := ∀ name, ¬ Relation.TransGen table.Holds name name

variable {table : Table}

theorem Holds.mem_names {owner part : String} (h : table.Holds owner part) :
    owner ∈ table.names := by
  obtain ⟨type, hg, _⟩ := h
  exact mem_names_of_get? hg

/-- What a type of the table holds is what its definition contains. -/
theorem holds_iff_of_get? {owner part : String} {type : Definition}
    (hg : table.get? owner = some type) :
    table.Holds owner part ↔ part ∈ type.containedNames owner := by
  rw [← type.holds_iff]
  constructor
  · rintro ⟨type', hg', hh⟩
    cases hg.symm.trans hg'
    exact hh
  · exact fun hh => ⟨type, hg, hh⟩

theorem Closed.of_holds {owner part : String} (hc : table.Closed) (h : table.Holds owner part) :
    part ∈ table.names := by
  obtain ⟨type, hg, h⟩ := h
  exact hc owner type part hg h.uses

/-- A name leads along held types. -/
theorem LeadsTo.reaches {name canonical : String} {shape : Shape}
    (h : table.LeadsTo name canonical shape) :
    Relation.ReflTransGen table.Holds name canonical := by
  induction h with
  | type => exact .refl
  | aliased hg _ ih => exact .head ⟨_, hg, .target⟩ ih

end Table

end CopySynth
