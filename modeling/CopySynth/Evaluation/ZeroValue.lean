import CopySynth.Generation.Error
import CopySynth.Schema.Resolution
import CopySynth.Value.Content
import CopySynth.Value.Number

/-!
# Zero values

Every type has a zero value. A record and a sequence of fixed length are zero in all their parts, a
growable sequence is empty and an interface has no value. A builtin is what its zero expression
reads as: a truth value, a number, a quoted text, or else a text that stands for itself.
-/

namespace CopySynth

/-- The text between quotes, if there is one at either end. -/
def unquoted? : List Char → Option (List Char)
  | '"' :: rest => if rest.getLast? = some '"' then some rest.dropLast else none
  | _ => none

/-- What a zero expression reads as. -/
def Scalar.ofLiteral (literal : String) : Scalar :=
  let text := literal.toList
  if literal = "true" then .bool true
  else if literal = "false" then .bool false
  else match Number.whole? text with
    | some value => .int value
    | none =>
      match Number.decimal? text with
      | some value => .float value
      | none =>
        match unquoted? text with
        | some inner => .text (String.ofList inner)
        | none => .token literal

/-- The zero value of a builtin. -/
def Builtin.zeroContent (type : Builtin) : Content :=
  match type.marker with
  | .capability => .unset
  | .externalSequence => .seq []
  | .value | .setLike =>
    match type.zero with
    | some literal => .scalar (.ofLiteral literal)
    | none => .scalar (.token "")

namespace Ref

mutual
/-- The zero value of a reference, given those of the types it names. -/
def zeroContent (ofName : String → Except GenerationError Content) :
    Ref → Except GenerationError Content
  | .named name => ofName name
  | .inline fields => do return .record (← fieldsZero ofName fields)

/-- The zero values of fields. -/
def fieldsZero (ofName : String → Except GenerationError Content) :
    List (String × Ref) → Except GenerationError (List (String × Content))
  | [] => return []
  | (name, ref) :: rest => do
    let value ← zeroContent ofName ref
    return (name, value) :: (← fieldsZero ofName rest)
end

end Ref

namespace Table

/-- The zero value of a name whose parts are nested at most this deep. -/
def zeroWithin (table : Table) : Nat → String → Except GenerationError Content
  | 0, _ => throw (.evaluation .endlessValue)
  | depth + 1, name => do
    let (_, shape) ← lifted (table.resolve name "zero value")
    match shape with
    | .builtin type => return type.zeroContent
    | .dynamic _ => return .seq []
    | .fixed 0 _ => return .array []
    | .fixed length element => do
      return .array (List.replicate length (← element.zeroContent (table.zeroWithin depth)))
    | .record fields => do return .record (← Ref.fieldsZero (table.zeroWithin depth) fields)

/-- The zero value of a reference. Types that hold each other in place are distinct names of the
table, which bounds how deep they nest. -/
def zeroContent (table : Table) (ref : Ref) : Except GenerationError Content :=
  ref.zeroContent (table.zeroWithin (table.size + 1))

end Table

end CopySynth
