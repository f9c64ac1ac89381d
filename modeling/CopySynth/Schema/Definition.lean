import CopySynth.Fields

/-!
# Type definitions

A type is a builtin, an alias, a sequence of fixed or growable length, or a record. Fields and
elements refer to types by name or spell out an anonymous record in place.

Two definitions are the same when they differ at most in the order of record fields, at any depth.
-/

namespace CopySynth

/-- What is known in advance about a builtin type. -/
inductive Marker where
  /-- A plain value: a number, a text, a colour. -/
  | value
  /-- An owned sequence of a type that the table does not describe. -/
  | externalSequence
  /-- A collection that its own plain duplication copies in full. -/
  | setLike
  /-- An interface; its values are of many concrete types. -/
  | capability
  deriving DecidableEq, Repr

/-- The marker's name in messages. -/
def Marker.label : Marker → String
  | .value => "value"
  | .externalSequence => "sequence-of-external"
  | .setLike => "set-like"
  | .capability => "capability"

/-- Whether a builtin of this kind owns storage that a plain duplicate would share. -/
def Marker.ownsStorage : Marker → Bool
  | .externalSequence | .capability => true
  | .value | .setLike => false

/-- A type described by its marker alone. -/
structure Builtin where
  /-- What is known about the type. -/
  marker : Marker := .value
  /-- The expression for its zero value, if it has one. -/
  zero : Option String := none
  deriving DecidableEq, Repr

/-- How a field or an element refers to its type. -/
inductive Ref where
  /-- A type of the table. -/
  | named (name : String)
  /-- An anonymous record. -/
  | inline (fields : List (String × Ref))

namespace Ref

/-- The name, if the reference is by name. -/
def name? : Ref → Option String
  | .named name => some name
  | .inline _ => none

mutual
/-- Merges repeated field names at every depth: the first place, the last type. -/
def merged : Ref → Ref
  | .named name => .named name
  | .inline fields => .inline (Fields.ofList (mergedFields fields))

/-- Merges inside each field's type. -/
def mergedFields : List (String × Ref) → List (String × Ref)
  | [] => []
  | (name, ref) :: rest => (name, ref.merged) :: mergedFields rest
end

mutual
/-- Field names are distinct at every depth. -/
def Distinct : Ref → Prop
  | .named _ => True
  | .inline fields => (Fields.names fields).Nodup ∧ FieldsDistinct fields

/-- Field names are distinct inside each field's type. -/
def FieldsDistinct : List (String × Ref) → Prop
  | [] => True
  | (_, ref) :: rest => ref.Distinct ∧ FieldsDistinct rest
end

mutual
/-- Equality up to the order of record fields. -/
def same : Ref → Ref → Bool
  | .named a, .named b => a == b
  | .inline as, .inline bs => as.length == bs.length && sameFields as bs
  | _, _ => false

/-- Each field on the left stands on the right with the same type. -/
def sameFields : List (String × Ref) → List (String × Ref) → Bool
  | [], _ => true
  | (name, ref) :: rest, others =>
    (match Fields.get? others name with
      | some other => ref.same other
      | none => false) && sameFields rest others
end

theorem fieldsDistinct_iff (fields : List (String × Ref)) :
    FieldsDistinct fields ↔ ∀ pair ∈ fields, pair.2.Distinct := by
  induction fields with
  | nil => simp [FieldsDistinct]
  | cons pair rest ih =>
    obtain ⟨name, ref⟩ := pair
    simp [FieldsDistinct, ih]

mutual
theorem distinct_merged : (ref : Ref) → ref.merged.Distinct
  | .named _ => trivial
  | .inline fields => by
    simp only [merged, Distinct]
    refine ⟨Fields.nodup_names_ofList _, (fieldsDistinct_iff _).2 fun pair h => ?_⟩
    exact (fieldsDistinct_iff _).1 (distinct_mergedFields fields) pair (Fields.mem_of_mem_ofList h)

theorem distinct_mergedFields : (fields : List (String × Ref)) →
    FieldsDistinct (mergedFields fields)
  | [] => trivial
  | (_, ref) :: rest => ⟨distinct_merged ref, distinct_mergedFields rest⟩
end

end Ref

/-- A type that is no alias. -/
inductive Shape where
  /-- A type known by its marker. -/
  | builtin (type : Builtin)
  /-- A sequence of this many elements, held in place. -/
  | fixed (length : Nat) (element : Ref)
  /-- A growable sequence that owns its storage. -/
  | dynamic (element : Ref)
  /-- A product of named fields, in the order they are written out. -/
  | record (fields : List (String × Ref))

namespace Shape

/-- The kind's name in messages. -/
def kindName : Shape → String
  | .builtin _ => "builtin"
  | .fixed _ _ => "fixed sequence"
  | .dynamic _ => "dynamic sequence"
  | .record _ => "record"

/-- Whether the type is a builtin. -/
def isBuiltin : Shape → Bool
  | .builtin _ => true
  | _ => false

/-- Whether the type is an interface. -/
def isCapability : Shape → Bool
  | .builtin type => type.marker == .capability
  | _ => false

/-- The expression for the zero value of a builtin that has one. -/
def zeroLiteral? : Shape → Option String
  | .builtin type => type.zero
  | _ => none

/-- Merges repeated field names at every depth. -/
def merged : Shape → Shape
  | .builtin type => .builtin type
  | .fixed length element => .fixed length element.merged
  | .dynamic element => .dynamic element.merged
  | .record fields => .record (Fields.ofList (Ref.mergedFields fields))

/-- Field names are distinct at every depth. -/
def Distinct : Shape → Prop
  | .builtin _ => True
  | .fixed _ element | .dynamic element => element.Distinct
  | .record fields => (Fields.names fields).Nodup ∧ Ref.FieldsDistinct fields

/-- Equality up to the order of record fields. -/
def same : Shape → Shape → Bool
  | .builtin a, .builtin b => a == b
  | .fixed n a, .fixed m b => n == m && a.same b
  | .dynamic a, .dynamic b => a.same b
  | .record as, .record bs => as.length == bs.length && Ref.sameFields as bs
  | _, _ => false

theorem distinct_merged (shape : Shape) : shape.merged.Distinct := by
  cases shape with
  | builtin => trivial
  | fixed _ element | dynamic element => exact element.distinct_merged
  | record fields => exact Ref.distinct_merged (.inline fields)

end Shape

/-- What a name of the table stands for. -/
inductive Definition where
  /-- Another name for a type. -/
  | aliasOf (target : String)
  /-- A type of its own. -/
  | type (shape : Shape)

namespace Definition

/-- An interface type without a zero expression. -/
def capability : Definition := .type (.builtin { marker := .capability })

/-- The kind's name in messages. -/
def kindName : Definition → String
  | .aliasOf _ => "alias"
  | .type shape => shape.kindName

/-- Whether the name stands for a builtin. -/
def isBuiltin : Definition → Bool
  | .aliasOf _ => false
  | .type shape => shape.isBuiltin

/-- Whether the name stands for an interface. -/
def isCapability : Definition → Bool
  | .aliasOf _ => false
  | .type shape => shape.isCapability

/-- The fields, if the name stands for a record. -/
def fields? : Definition → Option (List (String × Ref))
  | .type (.record fields) => some fields
  | _ => none

/-- Merges repeated field names at every depth. -/
def merged : Definition → Definition
  | .aliasOf target => .aliasOf target
  | .type shape => .type shape.merged

/-- Field names are distinct at every depth. -/
def Distinct : Definition → Prop
  | .aliasOf _ => True
  | .type shape => shape.Distinct

/-- Equality up to the order of record fields. -/
def same : Definition → Definition → Bool
  | .aliasOf a, .aliasOf b => a == b
  | .type a, .type b => a.same b
  | _, _ => false

theorem distinct_merged (type : Definition) : type.merged.Distinct := by
  cases type with
  | aliasOf => trivial
  | type shape => exact shape.distinct_merged

end Definition

example :
    (Shape.record [("x", .named "A"), ("y", .named "B"), ("x", .named "C")]).merged =
      .record [("x", .named "C"), ("y", .named "B")] := rfl

end CopySynth
