import CopySynth.Evaluation.ZeroValue
import CopySynth.Generation.Synthesis
import CopySynth.Value.Comparison

/-!
# Applying zero predicates

A predicate only reads a value. Tests are taken in order up to the first that fails, and a test
reads no more of its constituent than it needs, so that a value that contains itself can be tested
too.
-/

namespace CopySynth

namespace Synthesis

/-- Whether a constituent of this type passes a test, given the predicates of other types. -/
def passes (table : Table) (heap : Heap)
    (isZeroOf : String → Value → Except GenerationError Bool) (test : ZeroTest) (ref : Ref)
    (value : Value) : Except GenerationError Bool :=
  match test with
  | .literal _ | .zeroValue _ => do return heap.hasContent (← table.zeroContent ref) value
  | .empty _ => return heap.length? value == some 0
  | .unset => return value.isUnset
  | .delegate type => isZeroOf type value

/-- Applies the predicate of a type to a value that is less deep, storage aside, than the bound. -/
def isZeroWithin (synthesis : Synthesis) (table : Table) (heap : Heap) :
    Nat → String → Value → Except GenerationError Bool
  | 0, _, _ => throw (.evaluation .endlessValue)
  | depth + 1, type, value => do
    let (name, shape) ← lifted (table.resolve type "evaluation")
    let passes := passes table heap (synthesis.isZeroWithin table heap depth)
    match synthesis.zeroBody? name with
    | none => throw (.evaluation (.noPredicate name))
    | some .equalsZeroValue => return heap.hasContent (← table.zeroContent (.named name)) value
    | some (.allFields tests) =>
      match shape with
      | .record fields =>
        tests.allM fun (field, test) => do
          match value.field? field, Fields.get? fields field with
          | none, _ => throw (.evaluation (.missingField name field))
          | some _, none => throw (.evaluation (.undeclaredField name field))
          | some value, some ref => passes test ref value
      | _ => throw (.evaluation (.noRecord name))
    | some (.allElements test) =>
      match shape, value with
      | .fixed _ element, .array items => items.allM (passes test element)
      | _, _ => throw (.evaluation (.shapeMismatch name))

/-- Applies the predicate of a type to a value. A predicate hands on only to a part that is held in
place, so the number of parts held in place bounds how far it goes. -/
def isZero (synthesis : Synthesis) (table : Table) (heap : Heap) (type : String) (value : Value) :
    Except GenerationError Bool :=
  synthesis.isZeroWithin table heap (value.weight + 1) type value

end Synthesis

end CopySynth
