/-!
# Bodies of zero predicates

A zero predicate tells whether a value is the zero value of its type: by one comparison for a value
type, by a test per field or one test for all elements otherwise.
-/

namespace CopySynth

/-- A test of a field or an element. -/
inductive ZeroTest where
  /-- Equality with the expression of a builtin's zero value. -/
  | literal (text : String)
  /-- Equality with the zero value of the type; an anonymous record has no name. -/
  | zeroValue (type : Option String)
  /-- A sequence without elements, standing behind a type of its own or not. -/
  | empty (wrapped : Bool)
  /-- An interface without a value. -/
  | unset
  /-- The predicate of the type. -/
  | delegate (type : String)
  deriving DecidableEq, Repr

/-- The type whose predicate is called. -/
def ZeroTest.delegate? : ZeroTest → Option String
  | .delegate type => some type
  | _ => none

/-- The body of a zero predicate. -/
inductive ZeroBody where
  /-- The whole value equals the zero value of its type. -/
  | equalsZeroValue
  /-- Every field passes its test. -/
  | allFields (tests : List (String × ZeroTest))
  /-- Every element passes the same test. -/
  | allElements (test : ZeroTest)
  deriving DecidableEq, Repr

/-- The types whose predicates are called, in order. -/
def ZeroBody.delegates : ZeroBody → List String
  | .equalsZeroValue => []
  | .allFields tests => tests.filterMap fun field => field.2.delegate?
  | .allElements test => test.delegate?.toList

end CopySynth
