/-!
# Families of generated methods

A type may receive a public copy, a private copy helper and a zero predicate.
-/

namespace CopySynth

/-- A family of generated methods. -/
inductive Family where
  /-- The copy of a requested type. -/
  | publicCopy
  /-- The copy helper of a type that other copies need. -/
  | privateCopy
  /-- The test whether a value is the zero value of its type. -/
  | zeroPredicate
  deriving DecidableEq, Repr

/-- The family's name in messages. -/
def Family.label : Family → String
  | .publicCopy => "public copy"
  | .privateCopy => "private copy"
  | .zeroPredicate => "zero predicate"

end CopySynth
