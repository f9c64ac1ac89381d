import CopySynth.Schema.Definition

/-!
# Names a definition mentions

A definition refers to other types by name, at any depth of its anonymous records. Each mention
carries the words that say where it stands, for messages. `references` lists all of them;
`contained` leaves out the element of a growable sequence, which is held behind its own storage.
-/

namespace CopySynth

/-- A name used inside a definition. -/
structure Mention where
  /-- The name. -/
  name : String
  /-- Where it is used, in words. -/
  context : String
  deriving DecidableEq, Repr

/-- Words for a field of a record. -/
def fieldContext (field owner : String) : String := s!"field '{field}' of '{owner}'"

/-- Words for the element of a sequence. -/
def elementContext (owner : String) : String := s!"element of '{owner}'"

/-- Words for the target of an alias. -/
def aliasContext (owner : String) : String := s!"alias '{owner}'"

mutual
/-- The names a reference mentions, in order. The fields of an anonymous record count it as their
owner under the words that say where it stands. -/
def Ref.mentions (context : String) : Ref → List Mention
  | .named name => [⟨name, context⟩]
  | .inline fields => Ref.fieldMentions context fields

/-- The names the fields of `owner` mention, in order. -/
def Ref.fieldMentions (owner : String) : List (String × Ref) → List Mention
  | [] => []
  | (field, ref) :: rest => ref.mentions (fieldContext field owner) ++ fieldMentions owner rest
end

theorem Ref.fieldMentions_eq_flatMap (owner : String) (fields : List (String × Ref)) :
    Ref.fieldMentions owner fields =
      fields.flatMap fun field => field.2.mentions (fieldContext field.1 owner) := by
  induction fields with
  | nil => rfl
  | cons field rest ih =>
    obtain ⟨name, ref⟩ := field
    simp [Ref.fieldMentions, ih]

/-- All names the type `owner` mentions, in order. -/
def Shape.references (owner : String) : Shape → List Mention
  | .builtin _ => []
  | .fixed _ element | .dynamic element => element.mentions (elementContext owner)
  | .record fields => Ref.fieldMentions owner fields

/-- The names of the types that a value of the type `owner` holds in place, in order. -/
def Shape.contained (owner : String) : Shape → List Mention
  | .builtin _ | .dynamic _ => []
  | .fixed _ element => element.mentions (elementContext owner)
  | .record fields => Ref.fieldMentions owner fields

/-- All names the definition of `owner` mentions, in order. -/
def Definition.references (owner : String) : Definition → List Mention
  | .aliasOf target => [⟨target, aliasContext owner⟩]
  | .type shape => shape.references owner

/-- The mentions of types that a value of `owner` holds in place, in order. -/
def Definition.contained (owner : String) : Definition → List Mention
  | .aliasOf target => [⟨target, aliasContext owner⟩]
  | .type shape => shape.contained owner

/-- The names of the types that a value of `owner` holds in place, in order. -/
def Definition.containedNames (owner : String) (type : Definition) : List String :=
  (type.contained owner).map Mention.name

mutual
/-- The field names of the anonymous records a reference spells out, outer names first. -/
def Ref.fieldNames : Ref → List String
  | .named _ => []
  | .inline fields => Ref.namesInFields fields

/-- Each field's name, followed by the names its type spells out. -/
def Ref.namesInFields : List (String × Ref) → List String
  | [] => []
  | (name, ref) :: rest => name :: (ref.fieldNames ++ namesInFields rest)
end

/-- The field names of a record and of the anonymous records in its fields. The element of a
sequence is not entered. -/
def Definition.fieldNames : Definition → List String
  | .type (.record fields) => Ref.namesInFields fields
  | _ => []

end CopySynth
