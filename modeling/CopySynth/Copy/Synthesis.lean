import CopySynth.Classification
import CopySynth.Copy.Body
import CopySynth.Worklist

/-!
# Making copy bodies

The copy body of a type follows its definition alone. Making one also queues the types whose copy
helpers it calls, on behalf of the type it belongs to; when a constituent has no copy, the helpers
of those before it stay queued.
-/

namespace CopySynth

/-- Words for a constituent of a copy: a sequence's element, or a field. -/
def slotContext (slot owner : String) : String :=
  if slot = "element" then s!"element '{slot}' of '{owner}'" else s!"field '{slot}' of '{owner}'"

/-- The constituents a copy is spelled out for. -/
def Shape.slots : Shape → List (String × Ref)
  | .builtin _ => []
  | .fixed _ element | .dynamic element => [("element", element)]
  | .record fields => fields

namespace Table

/-- How a constituent of `owner` is duplicated. -/
def elementCopy (table : Table) (owner slot : String) (ref : Ref) :
    Except GenerationError ElementCopy := do
  let context := slotContext slot owner
  if ← table.isValue ref context then
    return .assign
  match ref with
  | .inline _ => throw (.unsupportedShape owner (.unnamedCopy context))
  | .named target =>
    let (canonical, shape) ← lifted (table.resolve target context)
    if shape.isCapability then return .capability canonical
    else if shape.isBuiltin then return .external canonical
    else return .helper canonical

/-- The copy of a type that is no value type, spelled out for its constituents. -/
def spelledCopy (table : Table) (owner : String) : Shape → Except GenerationError CopyBody
  | .builtin _ => return .trivial
  | .dynamic element => return .dynamic (← table.elementCopy owner "element" element)
  | .fixed length element => return .fixed length (← table.elementCopy owner "element" element)
  | .record fields => return .record (← fields.mapM fun (field, ref) =>
      return (field, ← table.elementCopy owner field ref))

/-- The copy body of a name; an alias has the body of its canonical type. -/
def copyBody (table : Table) (name : String) : Except GenerationError CopyBody := do
  let (owner, shape) ← lifted (table.resolve name "copy request")
  if shape.isCapability then throw (.unsupportedShape owner .copyOfCapability)
  else if shape.isBuiltin then return .trivial
  else if ← table.isValueName owner "copy request" then return .shallow
  else table.spelledCopy owner shape

/-- The types whose helpers the constituents of `owner` call, up to the first that has no copy. -/
def slotHelpers (table : Table) (owner : String) : List (String × Ref) → List String
  | [] => []
  | (slot, ref) :: rest =>
    match table.elementCopy owner slot ref with
    | .ok copy => copy.helper?.toList ++ slotHelpers table owner rest
    | .error _ => []

/-- The canonical type behind a name, with the types whose helpers its copy calls. -/
def copyRequests (table : Table) (name : String) : String × List String :=
  match table.resolve name "copy request" with
  | .error _ => (name, [])
  | .ok (owner, shape) =>
    match table.isValueName owner "copy request" with
    | .ok false => (owner, table.slotHelpers owner shape.slots)
    | _ => (owner, [])

/-- Makes the copy body of a name and queues the types whose helpers it calls. -/
def requestCopy (table : Table) (name : String) (work : Worklist) :
    Except GenerationError CopyBody × Worklist :=
  let (owner, helpers) := table.copyRequests name
  (table.copyBody name, work.requireAll helpers owner)

end Table

end CopySynth
