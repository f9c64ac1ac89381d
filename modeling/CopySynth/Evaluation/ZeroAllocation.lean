import CopySynth.Evaluation.DeepCopy
import CopySynth.Evaluation.ZeroValue

/-!
# Making zero values

A zero value is made part by part: each sequence in it is allocated where it is met, so that the
elements of a sequence of fixed length receive storage of their own one after the other.
-/

namespace CopySynth

/-- Makes the zero value of a builtin. -/
def Builtin.zeroOf (type : Builtin) : Alloc Value :=
  match type.marker with
  | .capability => return .unset
  | .externalSequence => allocSeq []
  | .value | .setLike =>
    match type.zero with
    | some literal => return .scalar (.ofLiteral literal)
    | none => return .scalar (.token "")

namespace Ref

mutual
/-- Makes the zero value of a reference, given how those of the types it names are made. -/
def zeroOf (ofName : String → Alloc Value) : Ref → Alloc Value
  | .named name => ofName name
  | .inline fields => do return .record (← fieldsZeroOf ofName fields)

/-- Makes the zero values of fields, in order. -/
def fieldsZeroOf (ofName : String → Alloc Value) :
    List (String × Ref) → Alloc (List (String × Value))
  | [] => return []
  | (name, ref) :: rest => do
    let value ← zeroOf ofName ref
    return (name, value) :: (← fieldsZeroOf ofName rest)
end

end Ref

namespace Table

/-- Makes the zero value of a name whose parts are nested at most this deep. -/
def zeroOfWithin (table : Table) : Nat → String → Alloc Value
  | 0, _ => throw (.evaluation .endlessValue)
  | depth + 1, name => do
    let (_, shape) ← lifted (table.resolve name "zero value")
    match shape with
    | .builtin type => type.zeroOf
    | .dynamic _ => allocSeq []
    | .fixed length element => do
      return .array (← (List.range length).mapM fun _ => element.zeroOf (table.zeroOfWithin depth))
    | .record fields => do return .record (← Ref.fieldsZeroOf (table.zeroOfWithin depth) fields)

/-- Makes the zero value of a reference. Types that hold each other in place are distinct names of
the table, which bounds how deep they nest. -/
def zeroOf (table : Table) (ref : Ref) : Alloc Value :=
  ref.zeroOf (table.zeroOfWithin (table.size + 1))

end Table

end CopySynth
