import CopySynth.Classification
import CopySynth.Worklist
import CopySynth.Zero.Body

/-!
# Making zero predicates

Records and sequences of fixed length have a zero predicate. Aliases have none of their own, and a
growable sequence is tested where it stands. Making a predicate also queues the types whose
predicates it calls; when a constituent has no test, the types before it stay queued.
-/

namespace CopySynth

/-- Words for a request of a zero predicate. -/
def predicateContext : String := "zero-predicate request"

/-- Whether types of this kind have a zero predicate. -/
def Shape.hasPredicate : Shape → Bool
  | .fixed _ _ | .record _ => true
  | .builtin _ | .dynamic _ => false

/-- The constituents of `owner` that are tested, each with the words that say where it stands. -/
def Shape.testedSlots (owner : String) : Shape → List (String × Ref)
  | .builtin _ | .dynamic _ => []
  | .fixed _ element => [(elementContext owner, element)]
  | .record fields => fields.map fun field => (fieldContext field.1 owner, field.2)

namespace Table

/-- The test of a constituent of `owner` that stands in this context. -/
def zeroTest (table : Table) (owner context : String) :
    Ref → Except GenerationError ZeroTest
  | .inline fields => do
    if ← table.isValue (.inline fields) context then return .zeroValue none
    else throw (.unsupportedShape owner (.unnamedPredicate context))
  | .named target => do
    let (canonical, shape) ← lifted (table.resolve target context)
    match shape.zeroLiteral? with
    | some literal => return .literal literal
    | none =>
      if ← table.isValueName canonical context then
        return .zeroValue (some canonical)
      match shape with
      | .dynamic _ => return .empty true
      | .builtin type => return if type.marker = .externalSequence then .empty false else .unset
      | .fixed _ _ | .record _ => return .delegate canonical

/-- The zero predicate of a type that is no value type, with a test for each constituent. -/
def spelledZero (table : Table) (owner : String) :
    Shape → Except GenerationError (Option ZeroBody)
  | .builtin type => throw (.unsupportedShape owner (.predicateOfBuiltin type.marker))
  | .dynamic _ => return none
  | .fixed _ element =>
    return some (.allElements (← table.zeroTest owner (elementContext owner) element))
  | .record fields => return some (.allFields (← fields.mapM fun (field, ref) =>
      return (field, ← table.zeroTest owner (fieldContext field owner) ref)))

/-- The zero predicate of a name, if names of its kind have one. -/
def zeroBody (table : Table) (name : String) :
    Except GenerationError (Option ZeroBody) := do
  match ← lifted (table.lookup name predicateContext) with
  | .aliasOf _ => return none
  | .type shape =>
    if shape.hasPredicate then
      if ← table.isValueName name predicateContext then
        return some .equalsZeroValue
    table.spelledZero name shape

/-- The types whose predicates the tests of `owner` call, up to the first constituent that has no
test. -/
def slotDelegates (table : Table) (owner : String) : List (String × Ref) → List String
  | [] => []
  | (context, ref) :: rest =>
    match table.zeroTest owner context ref with
    | .ok test => test.delegate?.toList ++ slotDelegates table owner rest
    | .error _ => []

/-- The types whose predicates the predicate of a name calls. -/
def zeroRequests (table : Table) (name : String) : List String :=
  match table.get? name, table.isValueName name predicateContext with
  | some (.type shape), .ok false => table.slotDelegates name (shape.testedSlots name)
  | _, _ => []

/-- Makes the zero predicate of a name and queues the types whose predicates it calls. -/
def requestZero (table : Table) (name : String) (work : Worklist) :
    Except GenerationError (Option ZeroBody) × Worklist :=
  (table.zeroBody name, work.requireAll (table.zeroRequests name) name)

end Table

end CopySynth
