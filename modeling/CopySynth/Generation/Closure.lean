import CopySynth.Copy.Synthesis
import CopySynth.Generation.Config
import CopySynth.Generation.Roots
import CopySynth.Generation.Synthesis
import CopySynth.Zero.Synthesis

/-!
# The closure of requested types

Each requested type receives a public copy and a zero predicate. The types whose copy helpers the
copies call are then worked off until none is left, and after them the zero predicates of the whole
table. Each family may make a limited number of bodies; a run that exceeds it names the chain of
types that led there.
-/

namespace CopySynth

/-- The state of a run. -/
structure Run where
  /-- Types whose copy helpers are called. -/
  copies : Worklist := .empty
  /-- Types whose zero predicates are called. -/
  zeros : Worklist := .empty
  /-- The canonical names of the requested types so far, in order. -/
  requested : List String := []
  /-- The methods made so far. -/
  output : Synthesis := {}

/-- The names a type refers to in its fields or its element, followed through aliases. -/
def Table.directReferences (table : Table) (name : String) : List String :=
  match table.resolve name "dependency chain" with
  | .ok (_, shape) => (shape.slots.filterMap fun slot => slot.2.name?).filterMap table.canonical?
  | .error _ => []

/-- Extends a chain of names at its front by who asked for its first name, as long as that is known
and new. Each step uses up a name that somebody asked for, which bounds their number. -/
def Worklist.referrers (work : Worklist) : Nat → List String → List String
  | 0, chain => chain
  | steps + 1, chain =>
    match chain.head?.bind work.requester? with
    | none => chain
    | some parent => if parent ∈ chain then chain else work.referrers steps (parent :: chain)

/-- The chain of names that led to this one, closed by a name it refers back to. -/
def Table.dependencyChain (table : Table) (work : Worklist) (name : String) : List String :=
  let chain := work.referrers work.requesters.length [name]
  chain ++ ((table.directReferences name).find? fun reference => reference ∈ chain).toList

namespace Run

/-- The worklist of a family. -/
def work (run : Run) : Family → Worklist
  | .zeroPredicate => run.zeros
  | .publicCopy | .privateCopy => run.copies

/-- Replaces the worklist of a family. -/
def withWork (run : Run) (family : Family) (work : Worklist) : Run :=
  match family with
  | .zeroPredicate => { run with zeros := work }
  | .publicCopy | .privateCopy => { run with copies := work }

/-- Makes a name done in a family. -/
def markDone (run : Run) (family : Family) (name : String) : Run :=
  run.withWork family ((run.work family).markDone name)

/-- Makes the copy of a type; a builtin needs none. -/
def makeCopy (run : Run) (table : Table) (family : Family) (name : String) :
    Except GenerationError Run :=
  match table.requestCopy name run.copies with
  | (.error fault, _) => .error fault
  | (.ok .trivial, copies) => .ok { run with copies := copies }
  | (.ok body, copies) =>
    .ok { run with
      copies := copies
      output := run.output.addCopy name family body (family == .privateCopy) }

/-- Makes the zero predicate of a type, if its kind has one. -/
def makeZero (run : Run) (table : Table) (name : String) : Except GenerationError Run :=
  match table.requestZero name run.zeros with
  | (.error fault, _) => .error fault
  | (.ok none, zeros) => .ok { run with zeros := zeros }
  | (.ok (some body), zeros) =>
    .ok { run with zeros := zeros, output := run.output.addZero name body }

/-- Makes the method of a family for a type. -/
def make (run : Run) (table : Table) (family : Family) (name : String) :
    Except GenerationError Run :=
  match family with
  | .zeroPredicate => run.makeZero table name
  | .publicCopy | .privateCopy => run.makeCopy table family name

/-- Makes the methods of a requested type, unless it was requested under another name. -/
def addRoot (table : Table) (run : Run) (root : String) : Except GenerationError Run := do
  let (name, shape) ← lifted (table.resolve root "root list")
  if shape.isCapability || decide (name ∈ run.requested) then
    return run
  let run := { run with requested := run.requested ++ [name] }
  let run ← run.makeCopy table .publicCopy name
  let run ← if shape.isBuiltin then pure run else run.makeZero table name
  return (run.markDone .privateCopy name).markDone .zeroPredicate name

/-- The fault of a family that has used up its budget when the turn of `name` comes. -/
def exhausted (run : Run) (table : Table) (family : Family) (budget : Nat) (name : String) :
    GenerationError :=
  .nonTerminating family budget (table.dependencyChain (run.work family) name)
    (name :: (run.work family).pending)

/-- Words for the queue of a family. -/
def queueContext : Family → String
  | .zeroPredicate => "zero-predicate queue"
  | .publicCopy | .privateCopy => "private copy queue"

/-- Works off the queue of a family. `turns` exceeds the number of names that can come up, and
`made` counts the bodies made so far. -/
def drain (table : Table) (family : Family) (budget : Nat) :
    Nat → Nat → Run → Except GenerationError Run
  | 0, _, run => .ok run
  | turns + 1, made, run =>
    match (run.work family).pop? with
    | none => .ok run
    | some (name, rest) => do
      let run := run.withWork family rest
      let type ← lifted (table.lookup name (queueContext family))
      if type.isBuiltin then
        drain table family budget turns made (run.markDone family name)
      else if budget ≤ made then
        throw (run.exhausted table family budget name)
      else
        let run ← run.make table family name
        drain table family budget turns (made + 1) (run.markDone family name)

/-- Queues the zero predicates of the whole table. -/
def queueAll (table : Table) (run : Run) : Run :=
  let names := table.entries.filterMap fun entry =>
    if entry.2.isBuiltin then none else some entry.1
  { run with zeros := names.foldl Worklist.push run.zeros }

end Run

/-- Makes the methods for the requested types: for the requests themselves, then for the copies and
the zero predicates that wait. Each family may make so many bodies in so many turns. -/
def Table.makeMethods (table : Table) (budget turns : Nat) (roots : List String) :
    Except GenerationError Synthesis := do
  let run ← (ascending roots).foldlM (Run.addRoot table) {}
  let run ← Run.drain table .privateCopy budget turns 0 run
  let run ← Run.drain table .zeroPredicate budget turns 0 (run.queueAll table)
  return run.output.markDiscovered run.requested

/-- The methods for the requested types, when each queue takes no more than this many turns. -/
def Table.synthesizeWithin (table : Table) (language : Code.Language) (turns : Nat) (config : Config)
    (roots : List String) : Except GenerationError Synthesis := do
  if config.validate then
    lifted (table.validate language)
  table.makeMethods (config.budget table.size) turns roots

/-- The methods for the requested types. A queue hands out distinct names of the table, so its
length plus one turns work it off. -/
def Table.synthesize (table : Table) (language : Code.Language) (config : Config)
    (roots : List String) : Except GenerationError Synthesis :=
  table.synthesizeWithin language (table.size + 1) config roots

end CopySynth
