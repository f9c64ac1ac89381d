import CopySynth.Proofs.ReorderedValues

/-!
# The order of fields does not count

Tables whose definitions are equal up to the order of record fields, at any depth, give the same
results. The order of fields decides what is classified, queued, overridden and tested first, but
not whether a run succeeds, which methods it makes, what a predicate answers and what a copy holds.
-/

namespace CopySynth

/-- Both copies hold this content, or both fail. -/
def SameCopy (content : Content) :
    Except GenerationError (Value × Heap) → Except GenerationError (Value × Heap) → Prop :=
  SameOutcome fun result other =>
    result.2.content? result.1 = some content ∧ other.2.content? other.1 = some content

/-- What holds of two finished runs when only the order of fields differs. -/
structure Synthesis.SameBehavior (table other : Table) (synthesis found : Synthesis) : Prop where
  /-- Each method of the first run is made by the second. -/
  forth : ∀ method ∈ synthesis.methods, ∃ counterpart ∈ found.methods, method.Reordered counterpart
  /-- Each method of the second run is made by the first. -/
  back : ∀ method ∈ found.methods, ∃ counterpart ∈ synthesis.methods, method.Reordered counterpart
  /-- The same clone operations are called. -/
  capabilities : synthesis.capabilities.Perm found.capabilities
  /-- A finite value of a type is zero in both or in neither, or the type has no predicate. -/
  isZero : ∀ (heap : Heap) type value content, heap.Stores value content →
    table.Outlined (.named type) value →
      found.isZero other heap type value = synthesis.isZero table heap type value
  /-- A finite value is copied by both or by neither, and its copies have its content. -/
  copy : ∀ (heap : Heap) type value content, heap.Stores value content →
    (∀ a ∈ heap.storage value, a < heap.size) →
      SameCopy content ((synthesis.copy table type value).run heap)
        ((found.copy other type value).run heap)

/-- Both runs fail, or the finished runs differ only in the order of fields. -/
def Table.SameUpToFields (table other : Table) :
    Except GenerationError Synthesis → Except GenerationError Synthesis → Prop :=
  SameOutcome fun synthesis found => synthesis.SameBehavior table other found

/-- A finite value is copied when the bound on the depth lets it be duplicated, and only then. -/
theorem Synthesis.copy_decides {synthesis : Synthesis} {table : Table} {heap : Heap} {type : String}
    {value : Value} {content : Content} (hc : heap.Stores value content)
    (ha : ∀ a ∈ heap.storage value, a < heap.size) :
    Decides heap (synthesis.CopyableWithin table heap
      (heap.depthBound value * (table.size + 2)) (.helper type) value) content
      (synthesis.copyWithin table (heap.depthBound value * (table.size + 2)) (.helper type)
        value) := by
  have hle : heap.depthBound value ≤ heap.depthBound value * (table.size + 2) :=
    Nat.le_mul_of_pos_right _ (Nat.succ_pos _)
  exact copyWithin_decides (Heap.contentWithin_mono hle (Heap.content?_eq_some_iff.mpr hc)) ha

namespace Table

variable {table other : Table} {language : Code.Language}

namespace Reordered

variable {config : Config} {roots : List String} {synthesis found : Synthesis}
  (hv : table.validate language = .ok ()) (hv' : other.validate language = .ok ())
  (h : table.Reordered other) (hs : table.synthesize language config roots = .ok synthesis)
  (hs' : other.synthesize language config roots = .ok found)
include hv hv' h hs hs'

theorem sameCopy {heap : Heap} {type : String} {value : Value} {content : Content}
    (hc : heap.Stores value content) (ha : ∀ a ∈ heap.storage value, a < heap.size) :
    SameCopy content ((synthesis.copy table type value).run heap)
      ((found.copy other type value).run heap) := by
  have hrun (synthesis : Synthesis) (table : Table) : (synthesis.copy table type value).run heap =
      (synthesis.copyWithin table (heap.depthBound value * (table.size + 2)) (.helper type)
        value).run heap := rfl
  have hfirst := @Synthesis.copy_decides synthesis table heap type value content hc ha
  have hsecond := @Synthesis.copy_decides found other heap type value content hc ha
  rw [h.size_eq] at hsecond
  rw [hrun, hrun, h.size_eq]
  refine SameOutcome.of_iff ?_ fun _ _ hr hr' =>
    ⟨hfirst.content?_eq (.refl heap) hr, hsecond.content?_eq (.refl heap) hr'⟩
  rw [hfirst.exists_ok_iff (.refl heap), hsecond.exists_ok_iff (.refl heap)]
  exact ⟨h.copyableWithin hv hv' hs hs', h.symm.copyableWithin hv' hv hs' hs⟩

theorem sameBehavior : synthesis.SameBehavior table other found where
  forth _ hm := h.exists_method hv hv' hs hs' hm
  back _ hm := h.symm.exists_method hv' hv hs' hs hm
  capabilities := h.capabilities_perm hv hv' hs hs'
  isZero _ _ _ _ hc ho := h.isZero_eq hv hv' hs hs' ho hc
  copy _ _ _ _ hc ha := h.sameCopy hv hv' hs hs' hc ha

end Reordered

/-- Over two tables that pass their checks, name the same types in the same order and define each
alike up to the order of fields, a run succeeds on both or on neither. When it does, it makes
methods for the same types, with the same fields in their bodies, and calls the clone operations of
the same interfaces; the predicates give the same answers and the copies have the same contents. -/
theorem synthesize_of_same_definitions (hv : table.validate language = .ok ())
    (hv' : other.validate language = .ok ())
    (hsame : List.Forall₂ (fun entry found => found.1 = entry.1 ∧ entry.2.same found.2 = true)
      table.entries other.entries) (config : Config) (roots : List String) :
    table.SameUpToFields other (table.synthesize language config roots)
      (other.synthesize language config roots) := by
  have h := reordered_of_same hsame
  exact SameOutcome.of_iff (h.exists_synthesize_iff hv hv') fun _ _ hs hs' =>
    h.sameBehavior hv hv' hs hs'

/-- The ring with the fields of its records in another order. -/
def turnedRing : Table where
  entries := [("i32", .type (.builtin { zero := some "0" })), ("Drawable", .capability),
    ("Nodes", .type (.dynamic (.named "Link"))), ("Link", .aliasOf "Node"),
    ("Node", .type (.record [("next", .named "Nodes"), ("label", .named "i32"),
      ("shape", .named "Drawable")])),
    ("Pair", .type (.fixed 2 (.named "i32"))),
    ("Ring", .type (.record [("ends", .named "Pair"), ("first", .named "Node")]))]
  distinct_names := by decide
  distinct_fields := by
    simp [Definition.Distinct, Definition.capability, Shape.Distinct, Ref.FieldsDistinct,
      Ref.Distinct]

/-- The runs over the ring and the turned ring make different bodies, which do the same. -/
theorem synthesize_of_same_definitions_ring :
    ∃ synthesis found, ring.synthesize Reader.language {} ["Ring"] = .ok synthesis ∧
      turnedRing.synthesize Reader.language {} ["Ring"] = .ok found ∧
      synthesis.copyBody? "Node" ≠ found.copyBody? "Node" ∧
      synthesis.SameBehavior ring turnedRing found := by
  have hsame : List.Forall₂ (fun entry found => found.1 = entry.1 ∧ entry.2.same found.2 = true)
      ring.entries turnedRing.entries := by
    simp only [ring, turnedRing, List.forall₂_cons, List.forall₂_nil_left_iff, and_true]
    decide +kernel
  have hs : turnedRing.synthesize Reader.language {} ["Ring"] = .ok _ := rfl
  have houtcome :=
    synthesize_of_same_definitions validate_ring (by decide +kernel) hsame {} ["Ring"]
  rw [synthesize_ring, hs] at houtcome
  exact ⟨ringMethods, _, synthesize_ring, hs, by decide +kernel, houtcome⟩

end Table

end CopySynth
