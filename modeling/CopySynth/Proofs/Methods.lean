import CopySynth.Fields
import CopySynth.Generation.Synthesis
import CopySynth.Proofs.FirstOccurrence

/-!
# The bodies of a synthesis

A synthesis seen as two lists of bodies under their types, copies and predicates, each in the order
in which the methods are written out.
-/

namespace CopySynth.Synthesis

/-- The copy bodies with their types, in order. -/
def copies (synthesis : Synthesis) : List (String × CopyBody) :=
  synthesis.methods.filterMap fun method =>
    match method.body with
    | .copy body => some (method.type, body)
    | .zero _ => none

/-- The zero predicates with their types, in order. -/
def predicates (synthesis : Synthesis) : List (String × ZeroBody) :=
  synthesis.methods.filterMap fun method =>
    match method.body with
    | .zero body => some (method.type, body)
    | .copy _ => none

/-- The types whose helpers the copy bodies call, in the order of the calls. -/
def helperCalls (synthesis : Synthesis) : List String :=
  synthesis.copies.flatMap fun copy => copy.2.helpers

/-- The interfaces whose clone operations the copy bodies call, in the order of the calls. -/
def capabilityCalls (synthesis : Synthesis) : List String :=
  synthesis.copies.flatMap fun copy => copy.2.capabilities

/-- The types that the predicate of a type delegates to, in order. -/
def delegatesOf (synthesis : Synthesis) (type : String) : List String :=
  ((synthesis.zeroBody? type).map ZeroBody.delegates).getD []

variable (synthesis : Synthesis) (type : String)

theorem copyBody?_eq_get? : synthesis.copyBody? type = Fields.get? synthesis.copies type := by
  obtain ⟨methods, capabilities⟩ := synthesis
  simp only [copyBody?, copies]
  induction methods with
  | nil => rfl
  | cons method methods ih =>
    rw [List.findSome?_cons, List.filterMap_cons, ih]
    cases hb : method.body with
    | zero body => simp [Method.copyOf?, hb]
    | copy body =>
      simp only [Method.copyOf?, hb, Fields.get?_cons]
      by_cases ht : method.type = type
      · simp [ht]
      · simp [ht, Ne.symm ht]

theorem zeroBody?_eq_get? : synthesis.zeroBody? type = Fields.get? synthesis.predicates type := by
  obtain ⟨methods, capabilities⟩ := synthesis
  simp only [zeroBody?, predicates]
  induction methods with
  | nil => rfl
  | cons method methods ih =>
    rw [List.findSome?_cons, List.filterMap_cons, ih]
    cases hb : method.body with
    | copy body => simp [Method.zeroOf?, hb]
    | zero body =>
      simp only [Method.zeroOf?, hb, Fields.get?_cons]
      by_cases ht : method.type = type
      · simp [ht]
      · simp [ht, Ne.symm ht]

/-- What the predicates delegate to, predicate by predicate. -/
theorem delegated_eq_flatMap :
    synthesis.delegated = synthesis.predicates.flatMap fun predicate => predicate.2.delegates := by
  obtain ⟨methods, capabilities⟩ := synthesis
  simp only [delegated, predicates]
  induction methods with
  | nil => rfl
  | cons method methods ih =>
    rw [List.flatMap_cons, List.filterMap_cons, ih]
    cases hb : method.body <;> simp [Method.delegates, hb]

/-! ## Adding methods -/

variable (family other : Family) (body : CopyBody) (zero : ZeroBody) (discovered : Bool)

@[simp] theorem copies_addCopy :
    (synthesis.addCopy type family body discovered).copies =
      synthesis.copies ++ [(type, body)] := by
  simp [copies, addCopy]

theorem forall_copies_addCopy {P : String × CopyBody → Prop}
    (h : ∀ copy ∈ synthesis.copies, P copy) (hn : P (type, body)) :
    ∀ copy ∈ (synthesis.addCopy type family body discovered).copies, P copy := by
  intro copy hc
  rw [copies_addCopy] at hc
  rcases List.mem_append.mp hc with hc | hc
  · exact h copy hc
  · rw [List.mem_singleton.mp hc]
    exact hn

@[simp] theorem copies_addZero : (synthesis.addZero type zero).copies = synthesis.copies := by
  simp [copies, addZero]

@[simp] theorem predicates_addCopy :
    (synthesis.addCopy type family body discovered).predicates = synthesis.predicates := by
  simp [predicates, addCopy]

@[simp] theorem predicates_addZero :
    (synthesis.addZero type zero).predicates = synthesis.predicates ++ [(type, zero)] := by
  simp [predicates, addZero]

@[simp] theorem names_addCopy :
    (synthesis.addCopy type family body discovered).names other =
      synthesis.names other ++ if family = other then [type] else [] := by
  by_cases h : family = other <;> simp [names, addCopy, h]

@[simp] theorem names_addZero :
    (synthesis.addZero type zero).names other =
      synthesis.names other ++ if Family.zeroPredicate = other then [type] else [] := by
  by_cases h : Family.zeroPredicate = other <;> simp [names, addZero, h]

@[simp] theorem helperCalls_addCopy :
    (synthesis.addCopy type family body discovered).helperCalls =
      synthesis.helperCalls ++ body.helpers := by
  simp [helperCalls]

@[simp] theorem capabilityCalls_addCopy :
    (synthesis.addCopy type family body discovered).capabilityCalls =
      synthesis.capabilityCalls ++ body.capabilities := by
  simp [capabilityCalls]

@[simp] theorem delegated_addCopy :
    (synthesis.addCopy type family body discovered).delegated = synthesis.delegated := by
  simp [delegated_eq_flatMap]

@[simp] theorem delegated_addZero :
    (synthesis.addZero type zero).delegated = synthesis.delegated ++ zero.delegates := by
  simp [delegated_eq_flatMap]

/-- Noting interfaces one by one keeps each where it came up first. -/
theorem noteCapability_foldl (known calls : List String) :
    calls.foldl noteCapability known.eraseDups = (known ++ calls).eraseDups := by
  induction calls generalizing known with
  | nil => simp
  | cons call calls ih =>
    have hnote : noteCapability known.eraseDups call = (known ++ [call]).eraseDups := by
      rw [noteCapability, eraseDups_concat]
      simp only [List.mem_eraseDups]
    rw [List.foldl_cons, hnote, ih, List.append_assoc, List.singleton_append]

/-! ## Marking what was discovered -/

variable (requested : List String)

@[simp] theorem copies_markDiscovered :
    (synthesis.markDiscovered requested).copies = synthesis.copies := by
  simp only [copies, markDiscovered, List.filterMap_map]
  congr 1
  funext method
  by_cases hf : method.family = .zeroPredicate <;> simp [hf]

@[simp] theorem predicates_markDiscovered :
    (synthesis.markDiscovered requested).predicates = synthesis.predicates := by
  simp only [predicates, markDiscovered, List.filterMap_map]
  congr 1
  funext method
  by_cases hf : method.family = .zeroPredicate <;> simp [hf]

@[simp] theorem names_markDiscovered :
    (synthesis.markDiscovered requested).names family = synthesis.names family := by
  simp only [names, markDiscovered]
  induction synthesis.methods with
  | nil => rfl
  | cons method methods ih =>
    simp only [List.map_cons, List.filter_cons]
    split <;> split <;> simp_all

/-- After the marking, a predicate is discovered when it was not requested and is called. -/
theorem discovered_markDiscovered {method : Method}
    (h : method ∈ (synthesis.markDiscovered requested).methods)
    (hf : method.family = .zeroPredicate) :
    method.discovered = true ↔ method.type ∉ requested ∧ method.type ∈ synthesis.delegated := by
  obtain ⟨before, _, rfl⟩ := List.mem_map.mp h
  by_cases hb : before.family = .zeroPredicate
  · simp [hb]
  · rw [if_neg hb] at hf
    exact absurd hf hb

@[simp] theorem capabilities_markDiscovered :
    (synthesis.markDiscovered requested).capabilities = synthesis.capabilities := rfl

end CopySynth.Synthesis
