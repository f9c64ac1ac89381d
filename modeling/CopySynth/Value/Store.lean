import CopySynth.Value.Heap

/-!
# Variables and places

Variables hold values over one heap. A place is a variable followed by steps into its value: to a
field, to an element, to the value behind an interface. A step through a growable sequence leads
into its cell, so that all who share the cell see a change there; all other steps stay inside the
variable.
-/

namespace CopySynth

/-- A step into a value. -/
inductive Step where
  /-- To the field of a record. -/
  | field (name : String)
  /-- To the element of a sequence. -/
  | item (index : Nat)
  /-- To the value behind an interface. -/
  | inside
  deriving DecidableEq, Repr

/-- A variable and the steps into its value. -/
structure Place where
  /-- The variable. -/
  root : String
  /-- The steps, outermost first. -/
  steps : List Step
  deriving DecidableEq, Repr

/-- Variables over one heap. -/
structure Store where
  /-- The heap. -/
  heap : Heap := {}
  /-- The variables. -/
  bindings : Fields Value := []

namespace Heap

/-- The part one step into a value. -/
def step? (heap : Heap) (value : Value) (step : Step) : Option Value :=
  match step, value with
  | .field name, .record fields => Fields.get? fields name
  | .item index, .array items => items[index]?
  | .item index, .seq address => (heap.read address)[index]?
  | .inside, .slot _ inner => some inner
  | _, _ => none

/-- The part some steps into a value. -/
def locate (heap : Heap) (value : Value) (steps : List Step) : Option Value :=
  steps.foldlM heap.step? value

/-- Replaces the part some steps into a value and gives the part that was there, with the value as it
is then. There is no such value when the steps lead through a cell: the cell changes, and the value
stays as it is. -/
def replace (heap : Heap) (part : Value) :
    List Step → Value → Option (Option Value × Value × Heap)
  | [], value => some (some part, value, heap)
  | step :: steps, value => do
    let inner ← heap.step? value step
    match ← heap.replace part steps inner with
    | (none, old, heap) => some (none, old, heap)
    | (some inner, old, heap) =>
      match step, value with
      | .field name, .record fields =>
        some (some (.record (Fields.put fields name inner)), old, heap)
      | .item index, .array items => some (some (.array (items.set index inner)), old, heap)
      | .item index, .seq address =>
        some (none, old, heap.update address ((heap.read address).set index inner))
      | .inside, .slot concrete _ => some (some (.slot concrete inner), old, heap)
      | _, _ => none

end Heap

namespace Store

/-- The value at a place. -/
def get? (store : Store) (place : Place) : Option Value := do
  let value ← store.bindings.get? place.root
  store.heap.locate value place.steps

/-- Gives a variable a value. -/
def assign (store : Store) (name : String) (value : Value) : Store :=
  { store with bindings := store.bindings.put name value }

/-- Replaces the value at a place and gives the one that was there. -/
def set? (store : Store) (place : Place) (part : Value) : Option (Value × Store) := do
  let value ← store.bindings.get? place.root
  let (changed, old, heap) ← store.heap.replace part place.steps value
  some (old, { heap, bindings := store.bindings.put place.root (changed.getD value) })

/-- Appends an element to the growable sequence at a place and gives its new length. -/
def append? (store : Store) (place : Place) (part : Value) : Option (Nat × Store) := do
  match ← store.get? place with
  | .seq address =>
    let items := store.heap.read address ++ [part]
    some (items.length, { store with heap := store.heap.update address items })
  | _ => none

end Store

end CopySynth
