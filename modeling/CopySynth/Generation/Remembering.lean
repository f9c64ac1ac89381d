import CopySynth.Generation.Closure

/-!
# A run with one classifier

The same run with a single classifier, which remembers from the first request to the last predicate
what it has settled. Each rule asks it where the rules of a table ask a classifier of their own.
-/

namespace CopySynth.Remembering

variable (table : Table)

/-! ## Bodies -/

/-- How a constituent of `owner` is duplicated. -/
def elementCopy (owner slot : String) (ref : Ref) : Classify ElementCopy := do
  let context := slotContext slot owner
  if ← table.classify ref context then
    return .assign
  match ref with
  | .inline _ => throw (.unsupportedShape owner (.unnamedCopy context))
  | .named target =>
    let (canonical, shape) ← lifted (table.resolve target context)
    if shape.isCapability then return .capability canonical
    else if shape.isBuiltin then return .external canonical
    else return .helper canonical

/-- The copy of a type that is no value type, spelled out for its constituents. -/
def spelledCopy (owner : String) : Shape → Classify CopyBody
  | .builtin _ => return .trivial
  | .dynamic element => return .dynamic (← elementCopy table owner "element" element)
  | .fixed length element => return .fixed length (← elementCopy table owner "element" element)
  | .record fields => return .record (← fields.mapM fun (field, ref) =>
      return (field, ← elementCopy table owner field ref))

/-- The copy body of a name; an alias has the body of its canonical type. -/
def copyBody (name : String) : Classify CopyBody := do
  let (owner, shape) ← lifted (table.resolve name "copy request")
  if shape.isCapability then throw (.unsupportedShape owner .copyOfCapability)
  else if shape.isBuiltin then return .trivial
  else if ← table.classify (.named owner) "copy request" then return .shallow
  else spelledCopy table owner shape

/-- The test of a constituent of `owner` that stands in this context. -/
def zeroTest (owner context : String) : Ref → Classify ZeroTest
  | .inline fields => do
    if ← table.classify (.inline fields) context then return .zeroValue none
    else throw (.unsupportedShape owner (.unnamedPredicate context))
  | .named target => do
    let (canonical, shape) ← lifted (table.resolve target context)
    match shape.zeroLiteral? with
    | some literal => return .literal literal
    | none =>
      if ← table.classify (.named canonical) context then
        return .zeroValue (some canonical)
      match shape with
      | .dynamic _ => return .empty true
      | .builtin type => return if type.marker = .externalSequence then .empty false else .unset
      | .fixed _ _ | .record _ => return .delegate canonical

/-- The zero predicate of a type that is no value type, with a test for each constituent. -/
def spelledZero (owner : String) : Shape → Classify (Option ZeroBody)
  | .builtin type => throw (.unsupportedShape owner (.predicateOfBuiltin type.marker))
  | .dynamic _ => return none
  | .fixed _ element =>
    return some (.allElements (← zeroTest table owner (elementContext owner) element))
  | .record fields => return some (.allFields (← fields.mapM fun (field, ref) =>
      return (field, ← zeroTest table owner (fieldContext field owner) ref)))

/-- The zero predicate of a name, if names of its kind have one. -/
def zeroBody (name : String) : Classify (Option ZeroBody) := do
  match ← lifted (table.lookup name predicateContext) with
  | .aliasOf _ => return none
  | .type shape =>
    if shape.hasPredicate then
      if ← table.classify (.named name) predicateContext then
        return some .equalsZeroValue
    spelledZero table name shape

/-! ## The run -/

/-- Makes the copy of a type and queues the types whose helpers it calls; a builtin needs none. -/
def makeCopy (run : Run) (family : Family) (name : String) : Classify Run := do
  let body ← copyBody table name
  let (owner, _) ← lifted (table.resolve name "copy request")
  return { run with
    copies := run.copies.requireAll body.helpers owner
    output := if body = .trivial then run.output
      else run.output.addCopy name family body (family == .privateCopy) }

/-- Makes the zero predicate of a type, if its kind has one, and queues the types it delegates
to. -/
def makeZero (run : Run) (name : String) : Classify Run := do
  let body ← zeroBody table name
  return { run with
    zeros := run.zeros.requireAll ((body.map ZeroBody.delegates).getD []) name
    output := body.elim run.output (run.output.addZero name) }

/-- Makes the method of a family for a type. -/
def make (run : Run) (family : Family) (name : String) : Classify Run :=
  match family with
  | .zeroPredicate => makeZero table run name
  | .publicCopy | .privateCopy => makeCopy table run family name

/-- Makes the methods of a requested type, unless it was requested under another name. -/
def addRoot (run : Run) (root : String) : Classify Run := do
  let (name, shape) ← lifted (table.resolve root "root list")
  if shape.isCapability || decide (name ∈ run.requested) then
    return run
  let run := { run with requested := run.requested ++ [name] }
  let run ← makeCopy table run .publicCopy name
  let run ← if shape.isBuiltin then pure run else makeZero table run name
  return (run.markDone .privateCopy name).markDone .zeroPredicate name

/-- Works off the queue of a family. -/
def drain (family : Family) (budget : Nat) : Nat → Nat → Run → Classify Run
  | 0, _, run => return run
  | turns + 1, made, run =>
    match (run.work family).pop? with
    | none => return run
    | some (name, rest) => do
      let run := run.withWork family rest
      let type ← lifted (table.lookup name (Run.queueContext family))
      if type.isBuiltin then
        drain family budget turns made (run.markDone family name)
      else if budget ≤ made then
        throw (run.exhausted table family budget name)
      else
        let run ← make table run family name
        drain family budget turns (made + 1) (run.markDone family name)

/-- The methods for the requested types. -/
def synthesize (language : Code.Language) (config : Config) (roots : List String) :
    Classify Synthesis := do
  if config.validate then
    lifted (table.validate language)
  let budget := config.budget table.size
  let run ← (ascending roots).foldlM (addRoot table) {}
  let run ← drain table .privateCopy budget (table.size + 1) 0 run
  let run ← drain table .zeroPredicate budget (table.size + 1) 0 (run.queueAll table)
  return run.output.markDiscovered run.requested

end CopySynth.Remembering
