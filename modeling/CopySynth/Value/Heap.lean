import CopySynth.Value.Content

/-!
# Values and their storage

A growable sequence is a cell of the heap; its plain duplicate is the same cell. All other values
are held in place. The heap only grows: `build` allocates a new cell for each sequence of a content,
and nothing but `update` changes a cell.

A value that contains itself has no content. For every other one, the number of parts in the value
and in all cells bounds how deep its content can be.
-/

namespace CopySynth

/-- A value. -/
inductive Value where
  /-- A value without parts. -/
  | scalar (value : Scalar)
  /-- Named fields, in order. -/
  | record (fields : List (String × Value))
  /-- A sequence held in place. -/
  | array (items : List Value)
  /-- A growable sequence, by the address of its cell. -/
  | seq (address : Nat)
  /-- An interface without a value. -/
  | unset
  /-- An interface with a value of a concrete type. -/
  | slot (concrete : String) (value : Value)

/-- The storage of growable sequences. -/
structure Heap where
  /-- The elements in each cell. -/
  cells : Array (List Value) := #[]

namespace Value

/-- A field of a record. -/
def field? (value : Value) (name : String) : Option Value :=
  match value with
  | .record fields => Fields.get? fields name
  | _ => none

/-- Whether this is an interface without a value. -/
def isUnset : Value → Bool
  | .unset => true
  | _ => false

/-- Whether two values are growable sequences in the same cell. -/
def sharesStorage : Value → Value → Bool
  | .seq a, .seq b => a == b
  | _, _ => false

mutual
/-- The number of parts, without those in cells. -/
def weight : Value → Nat
  | .scalar _ | .seq _ | .unset => 1
  | .record fields => fieldsWeight fields + 1
  | .array items => itemsWeight items + 1
  | .slot _ value => value.weight + 1

/-- The number of parts of all fields. -/
def fieldsWeight : List (String × Value) → Nat
  | [] => 0
  | (_, value) :: rest => value.weight + fieldsWeight rest

/-- The number of parts of all items. -/
def itemsWeight : List Value → Nat
  | [] => 0
  | value :: rest => value.weight + itemsWeight rest
end

end Value

namespace Heap

/-- The number of cells. -/
def size (heap : Heap) : Nat := heap.cells.size

/-- The elements in a cell. -/
def read (heap : Heap) (address : Nat) : List Value := heap.cells[address]?.getD []

/-- A new cell with these elements. -/
def alloc (heap : Heap) (items : List Value) : Nat × Heap :=
  (heap.size, ⟨heap.cells.push items⟩)

/-- Replaces the elements in a cell. -/
def update (heap : Heap) (address : Nat) (items : List Value) : Heap :=
  ⟨heap.cells.setIfInBounds address items⟩

/-- The number of parts in all cells. -/
def weight (heap : Heap) : Nat :=
  heap.cells.foldl (fun total items => total + Value.itemsWeight items + 1) 0

/-- The content of a value that is at most this deep. -/
def contentWithin (heap : Heap) : Nat → Value → Option Content
  | 0, _ => none
  | depth + 1, value =>
    match value with
    | .scalar value => some (.scalar value)
    | .record fields => do
      return .record (← fields.mapM fun field => do
        return (field.1, ← heap.contentWithin depth field.2))
    | .array items => do return .array (← items.mapM (heap.contentWithin depth))
    | .seq address => do return .seq (← (heap.read address).mapM (heap.contentWithin depth))
    | .unset => some .unset
    | .slot concrete value => do return .slot concrete (← heap.contentWithin depth value)

/-- A bound on the depth of the content of a value. -/
def depthBound (heap : Heap) (value : Value) : Nat := heap.weight + value.weight + 1

/-- The content of a value, unless the value contains itself. -/
def content? (heap : Heap) (value : Value) : Option Content :=
  heap.contentWithin (heap.depthBound value) value

mutual
/-- A value with this content, all of whose sequences are new. -/
def build : Content → Heap → Value × Heap
  | .scalar value, heap => (.scalar value, heap)
  | .record fields, heap =>
    let (fields, heap) := buildFields fields heap
    (.record fields, heap)
  | .array items, heap =>
    let (items, heap) := buildItems items heap
    (.array items, heap)
  | .seq items, heap =>
    let (items, heap) := buildItems items heap
    let (address, heap) := heap.alloc items
    (.seq address, heap)
  | .unset, heap => (.unset, heap)
  | .slot concrete content, heap =>
    let (value, heap) := build content heap
    (.slot concrete value, heap)

/-- Fields with these contents. -/
def buildFields : List (String × Content) → Heap → List (String × Value) × Heap
  | [], heap => ([], heap)
  | (name, content) :: rest, heap =>
    let (value, heap) := build content heap
    let (values, heap) := buildFields rest heap
    ((name, value) :: values, heap)

/-- Items with these contents. -/
def buildItems : List Content → Heap → List Value × Heap
  | [], heap => ([], heap)
  | content :: rest, heap =>
    let (value, heap) := build content heap
    let (values, heap) := buildItems rest heap
    (value :: values, heap)
end

/-- The number of elements of a sequence. -/
def length? (heap : Heap) : Value → Option Nat
  | .array items => some items.length
  | .seq address => some (heap.read address).length
  | _ => none

@[simp] theorem size_alloc (heap : Heap) (items : List Value) :
    (heap.alloc items).2.size = heap.size + 1 := by
  simp [alloc, size]

theorem read_alloc_new (heap : Heap) (items : List Value) :
    (heap.alloc items).2.read heap.size = items := by
  simp [alloc, read, size]

theorem read_alloc_old {heap : Heap} {address : Nat} (items : List Value)
    (old : address < heap.size) : (heap.alloc items).2.read address = heap.read address := by
  simp only [size] at old
  simp [alloc, read, Array.getElem?_push, Nat.ne_of_lt old]

theorem read_update_other (heap : Heap) {address other : Nat} (items : List Value)
    (distinct : other ≠ address) : (heap.update address items).read other = heap.read other := by
  simp [update, read, Ne.symm distinct]

end Heap

end CopySynth
