import CopySynth.Classification
import CopySynth.Generation.Synthesis
import CopySynth.Value.Heap

/-!
# Applying copy methods

A copy reads the value's storage and allocates storage of its own; what was allocated before is
never changed. Where a body duplicates plainly, the result shares storage with the value.
-/

namespace CopySynth

/-- A step that may allocate storage and may fail. -/
abbrev Alloc := StateT Heap (Except GenerationError)

/-- Allocates a growable sequence. -/
def allocSeq (items : List Value) : Alloc Value := do
  let heap ← get
  let (address, heap) := heap.alloc items
  set heap
  return .seq address

/-- Duplicates a value with new storage for every sequence in it. -/
def detach (value : Value) : Alloc Value := do
  let heap ← get
  match heap.content? value with
  | none => throw (.evaluation .endlessValue)
  | some content =>
    let (copy, heap) := heap.build content
    set heap
    return copy

namespace Synthesis

/-- How a value of a concrete type behind an interface is duplicated: by the copy made for it, or
plainly when it is a value type. -/
def variantCopy (synthesis : Synthesis) (table : Table) (concrete : String) :
    Except GenerationError ElementCopy := do
  if (synthesis.copyBody? concrete).isSome then
    return .helper concrete
  else if ← table.isValueName concrete "capability variant" then
    return .assign
  else
    throw (.evaluation (.uncopiedVariant concrete))

/-- Duplicates a value in fewer nested steps than the bound. -/
def copyWithin (synthesis : Synthesis) (table : Table) :
    Nat → ElementCopy → Value → Alloc Value
  | 0, _, _ => throw (.evaluation .endlessValue)
  | depth + 1, how, value =>
    match how with
    | .assign => return value
    | .external _ => detach value
    | .capability name =>
      match value with
      | .unset => return .unset
      | .slot concrete inner => do
        let how ← synthesis.variantCopy table concrete
        return .slot concrete (← synthesis.copyWithin table depth how inner)
      | _ => throw (.evaluation (.noSlot name))
    | .helper type => do
      let (name, _) ← lifted (table.resolve type "evaluation")
      match synthesis.copyBody? name, value with
      | none, _ => throw (.evaluation (.noCopy name))
      | some .trivial, value | some .shallow, value => return value
      | some (.dynamic element), .seq address => do
        let items := (← get).read address
        allocSeq (← items.mapM (synthesis.copyWithin table depth element))
      | some (.fixed _ element), .array items => do
        return .array (← items.mapM (synthesis.copyWithin table depth element))
      | some (.record tests), .record fields => do
        let overrides := (CopyBody.record tests).overrides
        let copy ← overrides.foldlM (fun (copy : Fields Value) (field, element) => do
          match Fields.get? fields field with
          | none => throw (.evaluation (.missingField name field))
          | some part =>
            return copy.put field (← synthesis.copyWithin table depth element part)) fields
        return .record copy
      | some _, _ => throw (.evaluation (.shapeMismatch name))

/-- Copies a value with the copy method of a type. A copy that comes back to a part it began with
under the same type never ends; the number of parts and types bounds the depth of every other. -/
def copy (synthesis : Synthesis) (table : Table) (type : String) (value : Value) :
    Alloc Value := do
  let heap ← get
  synthesis.copyWithin table (heap.depthBound value * (table.size + 2)) (.helper type) value

end Synthesis

end CopySynth
