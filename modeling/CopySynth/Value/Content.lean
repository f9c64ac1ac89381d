import CopySynth.Fields
import CopySynth.Value.Binary64

/-!
# Contents

The content of a value is the tree that is left when one forgets which sequences share storage. Two
contents are equal when their scalars are, records field by field under their names and sequences in
order; contents of different kinds never are.
-/

namespace CopySynth

/-- A value without parts. -/
inductive Scalar where
  | bool (value : Bool)
  | int (value : Int)
  | float (value : Binary64)
  | text (value : String)
  /-- A builtin value that is known only by a text. -/
  | token (value : String)
  deriving DecidableEq, Repr

/-- Equality of scalars: floating point numbers compare as numbers. -/
def Scalar.equal : Scalar → Scalar → Bool
  | .float x, .float y => x.equal y
  | x, y => x == y

/-- The content of a value. -/
inductive Content where
  /-- A value without parts. -/
  | scalar (value : Scalar)
  /-- Named fields, in order. -/
  | record (fields : List (String × Content))
  /-- A sequence held in place. -/
  | array (items : List Content)
  /-- A growable sequence. -/
  | seq (items : List Content)
  /-- An interface without a value. -/
  | unset
  /-- An interface with a value of a concrete type. -/
  | slot (concrete : String) (value : Content)

namespace Content

mutual
/-- Equality of contents. -/
def equal : Content → Content → Bool
  | .scalar x, .scalar y => x.equal y
  | .record xs, .record ys => xs.length == ys.length && equalFields xs ys
  | .array xs, .array ys => equalItems xs ys
  | .seq xs, .seq ys => equalItems xs ys
  | .unset, .unset => true
  | .slot a x, .slot b y => a == b && x.equal y
  | _, _ => false

/-- Each field on the left equals the field of its name on the right. -/
def equalFields : List (String × Content) → List (String × Content) → Bool
  | [], _ => true
  | (name, x) :: rest, ys =>
    (match Fields.get? ys name with
      | some y => x.equal y
      | none => false) && equalFields rest ys

/-- Items are equal one by one. -/
def equalItems : List Content → List Content → Bool
  | [], [] => true
  | x :: xs, y :: ys => x.equal y && equalItems xs ys
  | _, _ => false
end

end Content

end CopySynth
