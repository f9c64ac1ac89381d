import CopySynth.Proofs.Requests
import CopySynth.Proofs.Storage

/-!
# Value types are the heap-free types

Interfaces, external sequences and growable sequences keep their values on the heap. What a type
holds in place is reached from it through the targets of aliases, the elements of fixed sequences and
the fields of records, those of anonymous records included. The classifier of a table that passes its
check never fails, and a reference is to a value type when no type with values on the heap is reached
from it.
-/

namespace CopySynth

/-- A definition of a type that keeps its values on the heap. -/
inductive Definition.OnHeap : Definition → Prop
  | capability {zero} : OnHeap (.type (.builtin { marker := .capability, zero := zero }))
  | externalSequence {zero} : OnHeap (.type (.builtin { marker := .externalSequence, zero := zero }))
  | dynamic {element} : OnHeap (.type (.dynamic element))

theorem Definition.onHeap_iff (type : Definition) : type.OnHeap ↔ type.ownsStorage = true := by
  constructor
  · rintro (_ | _ | _) <;> rfl
  · intro h
    match type, h with
    | .type (.builtin { marker := .capability, .. }), _ => exact .capability
    | .type (.builtin { marker := .externalSequence, .. }), _ => exact .externalSequence
    | .type (.dynamic _), _ => exact .dynamic

namespace Table

/-- A name that is reached from a reference: the reference uses it, or a type of a name that is
reached holds it in place. -/
inductive Reached (table : Table) (ref : Ref) : String → Prop
  | start {name} (hu : ref.Uses name) : Reached table ref name
  | step {owner type part} (hr : Reached table ref owner) (hg : table.get? owner = some type)
      (hh : type.Holds part) : Reached table ref part

/-- A type that keeps its values on the heap is reached from the reference. -/
def ReachesHeap (table : Table) (ref : Ref) : Prop :=
  ∃ name type, table.Reached ref name ∧ table.get? name = some type ∧ type.OnHeap

variable {table : Table} {language : Code.Language} {ref : Ref}

/-- A reference to storage is one from which the heap is reached. -/
theorem owningRef_iff_reachesHeap : table.OwningRef ref ↔ table.ReachesHeap ref := by
  constructor
  · rintro ⟨name, hu, ho⟩
    have hreached : table.Reached ref name := .start hu
    clear hu
    induction ho with
    | @owner name type hg ho => exact ⟨name, type, hreached, hg, type.onHeap_iff.mpr ho⟩
    | part hh _ ih =>
      obtain ⟨type, hg, hh⟩ := hh
      exact ih (hreached.step hg hh)
  · rintro ⟨name, type, hreached, hg, hheap⟩
    have ho : table.Owning name := .owner hg (type.onHeap_iff.mp hheap)
    clear hg hheap
    -- back along the way to the name, all that was passed owns storage
    induction hreached with
    | start hu => exact ⟨_, hu, ho⟩
    | step _ hg hh ih => exact ih (.part ⟨_, hg, hh⟩ ho)

/-- In a table that passes its check, a question about a reference to types of the table is answered,
whatever the classifier was asked before, and the answer is that the reference is to a value type
exactly when the heap is not reached from it. -/
theorem classify_eq_ok_of_validate (h : table.validate language = .ok ())
    (hr : ∀ name, ref.Uses name → name ∈ table.names) (questions : List (Ref × String))
    (context : String) :
    ∃ isValue, ((table.classify ref context).run (table.asked questions)).1 = .ok isValue ∧
      (isValue = true ↔ ¬ table.ReachesHeap ref) := by
  obtain ⟨hsound, hpath⟩ := table.soundMemory_asked questions
  obtain ⟨after, hrun, _⟩ := answers_classify ref context _ hsound hpath
  rw [hrun, ← isValue_eq, ← owningRef_iff_reachesHeap]
  rcases isValue_of_validate h hr context with ⟨hno, hvalue⟩ | ⟨ho, hvalue⟩
  · exact ⟨true, hvalue, iff_of_true rfl hno⟩
  · exact ⟨false, hvalue, iff_of_false Bool.false_ne_true (not_not_intro ho)⟩

/-- An anonymous record of a pair and, one record deeper, a link: the sequence of the node it stands
for is reached. -/
theorem classify_ring :
    ∃ isValue, ((ring.classify
        (.inline [("pair", .named "Pair"), ("rest", .inline [("link", .named "Link")])])
        "request").run (ring.asked [(.named "Pair", "request"), (.named "Nod", "request")])).1 =
          .ok isValue ∧
      (isValue = true ↔ ¬ ring.ReachesHeap
        (.inline [("pair", .named "Pair"), ("rest", .inline [("link", .named "Link")])])) := by
  refine classify_eq_ok_of_validate validate_ring (fun name hu => ?_) _ _
  rw [Ref.uses_iff ""] at hu
  revert name
  decide +kernel

end Table

end CopySynth
