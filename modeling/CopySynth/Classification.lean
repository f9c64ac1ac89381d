import CopySynth.Generation.Error
import CopySynth.Schema.Mention
import CopySynth.Schema.Resolution
import CopySynth.Schema.Validation

/-!
# Value types

A value type is copied by plain duplication. All other types own storage somewhere: they hold a
growable sequence, an external sequence or an interface in place.

The classifier asks the types that a definition holds, in order, and stops at the first that is no
value type. It remembers each type it has settled, and keeps the types it is at work on to notice
when it comes back to one of them.
-/

namespace CopySynth

/-- Whether values of a type own storage themselves, whatever their parts are. -/
def Definition.ownsStorage : Definition → Bool
  | .type (.builtin builtin) => builtin.marker.ownsStorage
  | .type (.dynamic _) => true
  | _ => false

/-- The state of a classifier. -/
structure Classifier where
  /-- Types that are settled, each with whether it is a value type. -/
  known : List (String × Bool) := []
  /-- Types that are being classified, outermost first. -/
  inProgress : List String := []
  deriving DecidableEq, Repr

namespace Classifier

/-- What was found out about a type. -/
def answer? (classifier : Classifier) (name : String) : Option Bool :=
  classifier.known.lookup name

/-- Starts work on a type. -/
def enter (name : String) (classifier : Classifier) : Classifier :=
  { classifier with inProgress := classifier.inProgress ++ [name] }

/-- Ends the work on the innermost type. -/
def leave (classifier : Classifier) : Classifier :=
  { classifier with inProgress := classifier.inProgress.dropLast }

/-- Remembers what was found out about a type. -/
def settle (name : String) (isValue : Bool) (classifier : Classifier) : Classifier :=
  { classifier with known := (name, isValue) :: classifier.known }

end Classifier

/-- A question to a classifier, which may settle types even when it fails. -/
abbrev Classify := ExceptT GenerationError (StateM Classifier)

namespace Table

/-- Whether the type a mention names is a value type. The work on a type ends also when it fails. -/
def classifyMention (table : Table) : Nat → Mention → Classify Bool
  | 0, mention => do throw (.cyclicType (closedPath (← get).inProgress mention.name))
  | steps + 1, mention => do
    let classifier ← get
    match classifier.answer? mention.name with
    | some settled => return settled
    | none =>
      if mention.name ∈ classifier.inProgress then
        throw (.cyclicType (closedPath classifier.inProgress mention.name))
      else match table.get? mention.name with
        | none => throw (.unresolvedType mention.name mention.context)
        | some type =>
          modify (·.enter mention.name)
          let settled ← try
              if type.ownsStorage then pure false
              else (type.contained mention.name).allM (table.classifyMention steps)
            finally modify (·.leave)
          modify (·.settle mention.name settled)
          return settled

/-- Whether a reference that stands in this context is a value type. The types in progress are
distinct names of the table, which bounds their number. -/
def classify (table : Table) (ref : Ref) (context : String) : Classify Bool :=
  (ref.mentions context).allM (table.classifyMention (table.size + 1))

/-- Whether a reference that stands in this context is a value type, asked of a classifier that has
settled nothing. -/
def isValue (table : Table) (ref : Ref) (context : String) : Except GenerationError Bool :=
  ((table.classify ref context).run {}).1

/-- Whether a name that is used in this context is a value type. -/
def isValueName (table : Table) (name context : String) : Except GenerationError Bool :=
  table.isValue (.named name) context

end Table

end CopySynth
