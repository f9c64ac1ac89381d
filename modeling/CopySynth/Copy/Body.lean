/-!
# Bodies of copy methods

A copy body says how each constituent of a value is duplicated. A record body lists every field;
the ones it does not assign override a plain duplicate of the whole record.
-/

namespace CopySynth

/-- How a field or an element is duplicated. -/
inductive ElementCopy where
  /-- Plain duplication of a value type. -/
  | assign
  /-- The copy helper of the type. -/
  | helper (type : String)
  /-- The clone operation of the interface, which keeps the concrete type. -/
  | capability (name : String)
  /-- The external collection's own duplication. -/
  | external (type : String)
  deriving DecidableEq, Repr

/-- The type whose helper is called. -/
def ElementCopy.helper? : ElementCopy → Option String
  | .helper type => some type
  | _ => none

/-- The interface whose clone operation is called. -/
def ElementCopy.capability? : ElementCopy → Option String
  | .capability name => some name
  | _ => none

/-- The body of a copy method. -/
inductive CopyBody where
  /-- A builtin copies itself. -/
  | trivial
  /-- Plain duplication of a value type. -/
  | shallow
  /-- A new growable sequence, copied element by element. -/
  | dynamic (element : ElementCopy)
  /-- A new sequence of the same fixed length, copied element by element. -/
  | fixed (length : Nat) (element : ElementCopy)
  /-- A new record, copied field by field in the order of declaration. -/
  | record (fields : List (String × ElementCopy))
  deriving DecidableEq, Repr

namespace CopyBody

/-- Whether the whole value is duplicated plainly. -/
def isShallow : CopyBody → Bool
  | shallow => true
  | _ => false

/-- How the constituents are duplicated, in order. -/
def elements : CopyBody → List ElementCopy
  | trivial | shallow => []
  | dynamic element | fixed _ element => [element]
  | record fields => fields.map Prod.snd

/-- The fields that override the plain duplicate. -/
def overrides : CopyBody → List (String × ElementCopy)
  | record fields => fields.filter fun field => field.2 != .assign
  | _ => []

/-- The types whose helpers are called, in order. -/
def helpers (body : CopyBody) : List String := body.elements.filterMap ElementCopy.helper?

/-- The interfaces whose clone operations are called, in order. -/
def capabilities (body : CopyBody) : List String := body.elements.filterMap ElementCopy.capability?

end CopyBody

end CopySynth
