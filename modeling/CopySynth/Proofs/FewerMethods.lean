import CopySynth.Proofs.MadeMethods
import CopySynth.Proofs.Variants
import CopySynth.Proofs.ZeroPredicate

/-!
# Missing methods

A method that is missing can only be missed. What is copied or tested without some of the methods of
a run is copied or tested with all of them, and with the same result. There is one place at which a
missing method is made up for instead: behind an interface a value type is duplicated plainly when it
has no copy. The copy that is missing would have done the same.
-/

namespace CopySynth

/-- If a question to all items has an answer, it has the same one when more items answer. -/
theorem allM_of_imp {α ε : Type} {f g : α → Except ε Bool} {xs : List α}
    (h : ∀ x ∈ xs, ∀ answer, f x = .ok answer → g x = .ok answer) {answer : Bool}
    (hf : xs.allM f = .ok answer) : xs.allM g = .ok answer := by
  cases answer with
  | true =>
    have hall := allM_eq_ok_true_iff.mp hf
    exact allM_eq_ok_true_iff.mpr fun x hx => h x hx _ (hall x hx)
  | false =>
    obtain ⟨before, x, after, rfl, hbefore, hx⟩ := allM_eq_ok_false_iff.mp hf
    exact allM_eq_ok_false_iff.mpr ⟨before, x, after, rfl,
      fun y hy => h y (List.mem_append_left _ hy) _ (hbefore y hy),
      h x (List.mem_append_right _ List.mem_cons_self) _ hx⟩

namespace Synthesis

theorem methods_drop_subset (synthesis : Synthesis) (test : Method → Bool) :
    (synthesis.drop test).methods ⊆ synthesis.methods :=
  List.filter_sublist.subset

/-- What the methods of one synthesis do for a type, those of another do. -/
structure PartOf (part whole : Synthesis) : Prop where
  copies : ∀ type body, part.copyBody? type = some body → whole.copyBody? type = some body
  zeros : ∀ type body, part.zeroBody? type = some body → whole.zeroBody? type = some body

variable {table : Table} {language : Code.Language} {config : Config} {roots : List String}
  {synthesis fewer : Synthesis}

/-- No two methods of a run have different bodies for one type, so those that are left over do not
depend on which are left out. -/
theorem partOf_of_subset (h : table.synthesize language config roots = .ok synthesis)
    (hs : fewer.methods ⊆ synthesis.methods) : fewer.PartOf synthesis where
  copies type body hb := by
    rw [copyBody?_eq_get?] at hb ⊢
    obtain ⟨method, hm, hmethod⟩ := mem_copies_iff.mp (Fields.mem_of_get? hb)
    have hin : (type, body) ∈ synthesis.copies := mem_copies_iff.mpr ⟨method, hs hm, hmethod⟩
    exact Fields.get?_of_mem (Table.copyClosure_of_synthesize h).1.once hin
  zeros type body hb := by
    rw [zeroBody?_eq_get?] at hb ⊢
    obtain ⟨method, hm, hmethod⟩ := mem_predicates_iff.mp (Fields.mem_of_get? hb)
    have hin : (type, body) ∈ synthesis.predicates :=
      mem_predicates_iff.mpr ⟨method, hs hm, hmethod⟩
    exact Fields.get?_of_mem (Table.zeroClosure_of_synthesize h).1.once hin

/-! ## Copies -/

/-- Behind an interface a value is duplicated with fewer methods as with all of them, or plainly
instead of by the copy of its type. Then it is of a value type, whose copy duplicates plainly. -/
theorem variantCopy_cases (hp : fewer.PartOf synthesis) (hclosed : table.CopiesClosed synthesis)
    {concrete : String} {how : ElementCopy} (h : fewer.variantCopy table concrete = .ok how) :
    synthesis.variantCopy table concrete = .ok how ∨
      how = .assign ∧ synthesis.variantCopy table concrete = .ok (.helper concrete) ∧
        synthesis.copyBody? concrete = some .shallow := by
  rcases variantCopy_eq_ok_iff.mp h with ⟨hsome, rfl⟩ | ⟨_, hvalue, rfl⟩
  · obtain ⟨body, hb⟩ := Option.isSome_iff_exists.mp hsome
    exact .inl (variantCopy_of_copyBody? (hp.copies concrete body hb))
  · cases hb : synthesis.copyBody? concrete with
    | none => exact .inl (variantCopy_eq_ok_iff.mpr (.inr ⟨by simp [hb], hvalue, rfl⟩))
    | some body =>
      rcases classified_of_copyBody? hclosed hb with ⟨_, rfl⟩ | hstoring
      · exact .inr ⟨rfl, variantCopy_of_copyBody? hb, rfl⟩
      · exact absurd (Table.classified_of_isValueName hvalue) hstoring.not_plain

/-- The copy of a value type duplicates plainly. -/
theorem copyWithin_shallow (hclosed : table.CopiesClosed synthesis) {type : String}
    (hb : synthesis.copyBody? type = some .shallow) (depth : Nat) (value : Value) :
    synthesis.copyWithin table (depth + 1) (.helper type) value = pure value := by
  rw [copyWithin_helper (helperBody_of_copyBody? hclosed hb)]
  rfl

/-- What is copied with fewer methods is copied with all of them, with the same result. -/
theorem copyWithin_of_partOf (hp : fewer.PartOf synthesis)
    (hclosed : table.CopiesClosed synthesis) (depth : Nat) (how : ElementCopy) (value : Value) :
    Refines (fewer.copyWithin table depth how value)
      (synthesis.copyWithin table depth how value) := by
  induction depth generalizing how value with
  | zero => exact .of_throw _ _
  | succ depth ih =>
    cases how with
    | assign | external => exact .refl _
    | capability name =>
      cases value with
      | unset => exact .refl _
      | scalar | record | array | seq => exact .of_throw _ _
      | slot concrete inner =>
        intro before result h
        cases hv : fewer.variantCopy table concrete with
        | error fault =>
          rw [copyWithin_slot_error hv] at h
          cases h
        | ok how =>
          rw [copyWithin_slot hv, StateT.run_bind] at h
          obtain ⟨⟨copy, after⟩, hcopy, hresult⟩ := bind_eq_ok_iff.mp h
          cases hresult
          have hcopy := ih how inner _ _ hcopy
          rcases variantCopy_cases hp hclosed hv with hsame | ⟨rfl, hhelper, hshallow⟩
          · exact run_copyWithin_slot name hsame hcopy
          · cases depth with
            | zero => cases hcopy
            | succ depth =>
              refine run_copyWithin_slot name hhelper ?_
              rw [copyWithin_shallow hclosed hshallow]
              exact hcopy
    | helper type =>
      cases hb : fewer.helperBody table type with
      | error fault =>
        rw [copyWithin_helper_error hb]
        exact .of_throw _ _
      | ok found =>
        obtain ⟨shape, hr, hmade⟩ := helperBody_eq_ok_iff.mp hb
        have hall := helperBody_eq_ok_iff.mpr ⟨shape, hr, hp.copies _ _ hmade⟩
        rw [copyWithin_helper hb, copyWithin_helper hall]
        exact refines_applyBody ih found.1 found.2 value

/-! ## Zero predicates -/

/-- A test of a constituent that has an answer keeps it when more predicates answer. -/
theorem passes_of_imp {heap : Heap}
    {isZeroOf isZeroOf' : String → Value → Except GenerationError Bool}
    (h : ∀ type value answer, isZeroOf type value = .ok answer → isZeroOf' type value = .ok answer)
    {test : ZeroTest} {ref : Ref} {value : Value} {answer : Bool}
    (ht : passes table heap isZeroOf test ref value = .ok answer) :
    passes table heap isZeroOf' test ref value = .ok answer := by
  cases test with
  | literal | zeroValue | empty | unset => exact ht
  | delegate type => exact h type value answer ht

/-- So does the body of a predicate. -/
theorem applyTests_of_imp {heap : Heap}
    {pass pass' : ZeroTest → Ref → Value → Except GenerationError Bool}
    (h : ∀ test ref part answer, pass test ref part = .ok answer → pass' test ref part = .ok answer)
    {name : String} {shape : Shape} {body : ZeroBody} {value : Value} {answer : Bool}
    (ha : applyTests table heap pass name shape body value = .ok answer) :
    applyTests table heap pass' name shape body value = .ok answer := by
  cases body with
  | equalsZeroValue => exact ha
  | allFields tests =>
    cases shape with
    | record fields =>
      refine allM_of_imp (fun ⟨field, test⟩ _ answer hfield => ?_) ha
      dsimp only at hfield ⊢
      split at hfield
      · exact absurd hfield throw_ne_ok
      · exact absurd hfield throw_ne_ok
      · exact h _ _ _ _ hfield
    | builtin | fixed | dynamic => exact absurd ha throw_ne_ok
  | allElements test =>
    cases shape with
    | fixed length element =>
      cases value with
      | array items => exact allM_of_imp (fun item _ answer => h _ _ _ _) ha
      | scalar | record | seq | unset | slot => exact absurd ha throw_ne_ok
    | builtin | dynamic | record => exact absurd ha throw_ne_ok

/-- What is tested with fewer methods is tested with all of them, with the same answer. -/
theorem isZeroWithin_of_partOf (hp : fewer.PartOf synthesis) {heap : Heap} {depth : Nat}
    {type : String} {value : Value} {answer : Bool}
    (h : fewer.isZeroWithin table heap depth type value = .ok answer) :
    synthesis.isZeroWithin table heap depth type value = .ok answer := by
  induction depth generalizing type value answer with
  | zero => cases h
  | succ depth ih =>
    cases hr : table.resolve type "evaluation" with
    | error cause =>
      rw [isZeroWithin_of_error hr] at h
      cases h
    | ok found =>
      obtain ⟨name, shape⟩ := found
      cases hb : fewer.zeroBody? name with
      | none =>
        rw [isZeroWithin_of_none hr hb] at h
        cases h
      | some body =>
        rw [isZeroWithin_of_body hr hb] at h
        rw [isZeroWithin_of_body hr (hp.zeros name body hb)]
        exact applyTests_of_imp (fun _ _ _ _ => passes_of_imp fun _ _ _ => ih) h

/-! ## Both -/

/-- Whatever methods of a run are left out, what is copied or tested without them is copied or tested
with them, and has the same result. -/
theorem calls_of_fewer (h : table.synthesize language config roots = .ok synthesis)
    (hs : fewer.methods ⊆ synthesis.methods) (type : String) (value : Value) (heap : Heap) :
    (∀ copy after, (fewer.copy table type value).run heap = .ok (copy, after) →
      (synthesis.copy table type value).run heap = .ok (copy, after)) ∧
    (∀ answer, fewer.isZero table heap type value = .ok answer →
      synthesis.isZero table heap type value = .ok answer) := by
  have hp := partOf_of_subset h hs
  refine ⟨fun copy after hcopy => ?_, fun answer hzero => isZeroWithin_of_partOf hp hzero⟩
  exact copyWithin_of_partOf hp (Table.copiesClosed_of_synthesize h) _ _ _ _ _ hcopy

end Synthesis

/-- A node with a pair behind its interface is copied without the methods for pairs, and with them
in the same way; whether it is zero is known without them too. -/
theorem Table.calls_of_fewer_ring :
    ∃ synthesis copy after, ring.synthesize Reader.language {} ["Ring", "Pair"] = .ok synthesis ∧
      (synthesis.copyBody? "Pair").isSome ∧
      (synthesis.copy ring "Node" ringNode).run ringHeap = .ok (copy, after) ∧
      synthesis.isZero ring ringHeap "Node" ringNode = .ok false := by
  obtain ⟨synthesis, copy, after, h, hpair, hcopy, hzero⟩ : ∃ synthesis copy after,
      ring.synthesize Reader.language {} ["Ring", "Pair"] = .ok synthesis ∧
      (synthesis.copyBody? "Pair").isSome ∧
      ((synthesis.drop (Method.type · = "Pair")).copy ring "Node" ringNode).run ringHeap =
        .ok (copy, after) ∧
      (synthesis.drop (Method.type · = "Pair")).isZero ring ringHeap "Node" ringNode = .ok false :=
    ⟨_, _, _, rfl, rfl, rfl, rfl⟩
  have hfewer := synthesis.methods_drop_subset (Method.type · = "Pair")
  have hcalls := Synthesis.calls_of_fewer h hfewer "Node" ringNode ringHeap
  exact ⟨synthesis, copy, after, h, hpair, hcalls.1 _ _ hcopy, hcalls.2 _ hzero⟩

end CopySynth
