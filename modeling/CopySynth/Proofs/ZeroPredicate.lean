import CopySynth.Evaluation.Predicate
import CopySynth.Proofs.DeepCopy
import CopySynth.Proofs.Outlines
import CopySynth.Proofs.ZeroClosure

/-!
# Zero predicates decide equality with the zero value

Each test of a predicate agrees with the comparison of its constituent with the zero value of its
type, whichever test was chosen. So does the predicate with the comparison of the whole, since a
delegated test goes to a part that is held in place.
-/

namespace CopySynth

namespace Synthesis

variable {synthesis : Synthesis} {table : Table} {language : Code.Language} {heap : Heap}

/-- A test of a constituent agrees with its comparison with the zero value, if the predicate it
delegates to does. -/
theorem passes_eq_ok (hv : table.validate language = .ok ())
    {isZeroOf : String → Value → Except GenerationError Bool} {owner context : String} {ref : Ref}
    {test : ZeroTest} {part : Value} {content zero : Content}
    (h : table.zeroTest owner context ref = .ok test) (ho : table.Outlined ref part)
    (hc : heap.Stores part content) (hz : table.IsZero ref zero)
    (hcalls : ∀ target, test.delegate? = some target → table.Outlined (.named target) part →
      table.IsZero (.named target) zero → isZeroOf target part = .ok (zero.equal content)) :
    passes table heap isZeroOf test ref part = .ok (zero.equal content) := by
  have hcompare : (do return heap.hasContent (← table.zeroContent ref) part) =
      Except.ok (ε := GenerationError) (zero.equal content) := by
    obtain ⟨depth, hc⟩ := hc
    rw [Table.zeroContent_of_isZero hv hz, ← Heap.hasContent_eq_equal zero hc]
    rfl
  rcases Table.zeroTest_cases h with ⟨_, rfl, rfl⟩ | ⟨target, canonical, shape, rfl, hl, hcase⟩
  · exact hcompare
  rcases hcase with ⟨_, _, rfl⟩ | ⟨_, rfl⟩ | ⟨hvalue, rfl⟩
  · exact hcompare
  · exact hcompare
  -- no value type: the kind of the type decides
  have ho' := ho.outlines hl
  obtain ⟨_, _, hl', hz'⟩ := hz.named
  obtain ⟨rfl, rfl⟩ := hl.unique hl'
  cases shape with
  | builtin type =>
    cases hz'
    rcases type.zeroContent_cases with ⟨hm, hz⟩ | ⟨hm, hz⟩ | ⟨hm, _⟩
    · rw [Table.partTest, if_neg (by rw [hm]; decide), hz]
      exact congrArg Except.ok (Heap.isUnset_eq hc)
    · rw [Table.partTest, if_pos hm, hz]
      cases ho' with
      | external => exact congrArg Except.ok (Heap.length?_seq_eq hc)
      | plain hm' | unset hm' | slot hm' => simp [hm, Marker.ownsStorage] at hm'
    · rw [Table.isValueName_builtin context hl.get?, hm] at hvalue
      cases hvalue
  | dynamic element =>
    cases ho'
    cases hz'
    exact congrArg Except.ok (Heap.length?_seq_eq hc)
  | fixed | record =>
    exact hcalls canonical rfl (.named (.type hl.get?) ho') (hz.canonical hl)

/-- The tests of the fields of a record agree with the comparison of the record. -/
theorem allFields_eq_ok {f : String × ZeroTest → Except GenerationError Bool}
    {declared : List (String × Ref)} {tests : List (String × ZeroTest)} {zeros : Fields Content}
    {fields : Fields Value} {contents : Fields Content}
    (hd : (Fields.names declared).Nodup)
    (hn : (Fields.names fields).Perm (Fields.names declared))
    (hall : List.Forall₂ (fun field content => content.1 = field.1 ∧
      heap.Stores field.2 content.2) fields contents)
    (hzeros : List.Forall₂ (fun field zero => zero.1 = field.1 ∧ table.IsZero field.2 zero.2)
      declared zeros)
    {R : String × Ref → String × ZeroTest → Prop}
    (htests : List.Forall₂ (fun field test => test.1 = field.1 ∧ R field test) declared tests)
    (hf : ∀ name ref test zero part content, (name, ref) ∈ declared → (name, test) ∈ tests →
      (name, part) ∈ fields → R (name, ref) (name, test) → table.IsZero ref zero →
      heap.Stores part content → f (name, test) = .ok (zero.equal content)) :
    tests.allM f = .ok ((Content.record zeros).equal (.record contents)) := by
  have hnames : Fields.names contents = Fields.names fields := names_eq_of_forall₂ hall
  have hdistinct : (Fields.names contents).Nodup := hnames ▸ hn.nodup_iff.mpr hd
  have hlen : zeros.length = contents.length := by
    have := hn.length_eq
    rw [Fields.names, Fields.names, List.length_map, List.length_map] at this
    rw [← hzeros.length_eq, ← hall.length_eq, this]
  have hrecord : (Content.record zeros).equal (.record contents) =
      zeros.all fun zero => ((Fields.get? contents zero.1).map zero.2.equal).getD false := by
    rw [← Content.equalFields_eq_all, Content.equal, hlen, beq_self_eq_true, Bool.true_and]
  rw [hrecord]
  refine allM_eq_ok_all (forall₂_of_left htests hzeros ?_)
  rintro ⟨name, ref⟩ hr ⟨_, test⟩ ht ⟨_, zero⟩ _ ⟨rfl, htest⟩ ⟨rfl, hz⟩
  obtain ⟨⟨name, part⟩, hp, rfl⟩ :=
    List.mem_map.mp (hn.mem_iff.mpr (List.mem_map.mpr ⟨_, hr, rfl⟩))
  obtain ⟨⟨_, content⟩, hm, rfl, hs⟩ := exists_of_mem_left hall hp
  rw [Fields.get?_of_mem hdistinct hm]
  exact hf _ ref test zero part content hr ht hp htest hz hs

/-- The test of the items of a sequence of fixed length agrees with the comparison of the
sequence. -/
theorem allElements_eq_ok {f : Value → Except GenerationError Bool} {length : Nat} {element : Ref}
    {items : List Value} {contents : List Content} {zero : Content} (hl : items.length = length)
    (hall : List.Forall₂ heap.Stores items contents)
    (hz : (Shape.fixed length element).HasZero table.IsZero zero)
    (hf : ∀ item ∈ items, ∀ zero content, table.IsZero element zero → heap.Stores item content →
      f item = .ok (zero.equal content)) :
    items.allM f = .ok (zero.equal (.array contents)) := by
  cases hz with
  | empty =>
    rw [List.length_eq_zero_iff] at hl
    subst hl
    cases hall
    rfl
  | fixed _ hz =>
    rw [Content.equal, Content.equalItems_replicate (hall.length_eq ▸ hl)]
    refine allM_eq_ok_all (forall₂_imp_of_mem hall fun item hi content _ hs => ?_)
    exact hf item hi _ content hz hs

/-- What the body of a predicate answers about a value, given the answers of its tests. -/
def applyTests (table : Table) (heap : Heap)
    (pass : ZeroTest → Ref → Value → Except GenerationError Bool) (name : String) (shape : Shape) :
    ZeroBody → Value → Except GenerationError Bool
  | .equalsZeroValue, value => do
    return heap.hasContent (← table.zeroContent (.named name)) value
  | .allFields tests, value =>
    match shape with
    | .record fields =>
      tests.allM fun (field, test) => do
        match value.field? field, Fields.get? fields field with
        | none, _ => throw (.evaluation (.missingField name field))
        | some _, none => throw (.evaluation (.undeclaredField name field))
        | some value, some ref => pass test ref value
    | _ => throw (.evaluation (.noRecord name))
  | .allElements test, value =>
    match shape, value with
    | .fixed _ element, .array items => items.allM (pass test element)
    | _, _ => throw (.evaluation (.shapeMismatch name))

section Calls

variable {depth : Nat} {type name : String} {shape : Shape} {value : Value}

/-- The predicate of a name applies the body of the type it leads to. -/
theorem isZeroWithin_of_body (hr : table.resolve type "evaluation" = .ok (name, shape))
    {body : ZeroBody} (hb : synthesis.zeroBody? name = some body) :
    synthesis.isZeroWithin table heap (depth + 1) type value =
      applyTests table heap (passes table heap (synthesis.isZeroWithin table heap depth)) name shape
        body value := by
  rw [isZeroWithin, hr, lifted, ok_bind]
  dsimp only
  rw [hb]
  cases body <;> rfl

theorem isZeroWithin_of_none (hr : table.resolve type "evaluation" = .ok (name, shape))
    (hb : synthesis.zeroBody? name = none) :
    synthesis.isZeroWithin table heap (depth + 1) type value =
      .error (.evaluation (.noPredicate name)) := by
  rw [isZeroWithin, hr, lifted, ok_bind]
  dsimp only
  rw [hb]
  rfl

theorem isZeroWithin_of_error {cause : SchemaError}
    (hr : table.resolve type "evaluation" = .error cause) :
    synthesis.isZeroWithin table heap (depth + 1) type value = .error (.ofSchema cause) := by
  rw [isZeroWithin, hr]
  rfl

end Calls

/-- The body of a predicate agrees with the comparison with the zero value when its tests do, on the
parts that the value holds in place. -/
theorem applyTests_eq_ok (hv : table.validate language = .ok ())
    {pass : ZeroTest → Ref → Value → Except GenerationError Bool} {type : String} {shape : Shape}
    {body : ZeroBody} {value : Value} {content zero : Content}
    (hg : table.get? type = some (.type shape)) (hb : table.zeroBody type = .ok (some body))
    (hz : table.IsZero (.named type) zero) (ho : table.Outlined (.named type) value)
    (hc : heap.Stores value content)
    (hpass : ∀ test ∈ body.tests, ∀ context ref part content zero,
      table.zeroTest type context ref = .ok test → value.address? = none →
      part ∈ heap.parts value → table.Outlined ref part → table.IsZero ref zero →
      heap.Stores part content → pass test ref part = .ok (zero.equal content)) :
    applyTests table heap pass type shape body value = .ok (zero.equal content) := by
  have ho' := ho.outlines (.type hg)
  obtain ⟨_, _, hl, hz'⟩ := hz.named
  obtain ⟨rfl, rfl⟩ := Table.LeadsTo.unique (.type hg) hl
  rcases Table.zeroBody_cases hb with ⟨hnone, _⟩ | ⟨_, hg', _, hcase⟩
  · cases hnone
  cases hg.symm.trans hg'
  rcases hcase with ⟨_, hbody⟩ | ⟨_, spelled, hbody, hspelled⟩
  · cases hbody
    obtain ⟨_, hc⟩ := hc
    rw [applyTests, Table.zeroContent_of_isZero hv hz, ← Heap.hasContent_eq_equal zero hc]
    rfl
  cases hbody
  cases shape with
  | builtin => exact absurd hspelled throw_ne_ok
  | dynamic => cases pure_eq_ok_iff.mp hspelled
  | fixed length element =>
    obtain ⟨test, htest, hbody⟩ := bind_eq_ok_iff.mp hspelled
    cases pure_eq_ok_iff.mp hbody
    cases ho' with
    | @fixed _ _ items hl hitems =>
      obtain ⟨contents, hall, rfl⟩ := Heap.stores_iff.mp hc
      exact allElements_eq_ok hl hall hz' fun item hi zero content hz hs =>
        hpass test List.mem_cons_self _ _ item content zero htest rfl hi (hitems item hi) hz hs
  | record declared =>
    obtain ⟨tests, rfl, htests⟩ := Table.forall₂_fields_of_spelledZero hspelled
    have hd := Table.nodup_of_record hg
    cases ho' with
    | record ho' =>
      cases hz' with
      | record hz' =>
        cases ho' with
        | @inline _ fields hn hs =>
          obtain ⟨zeros, rfl, hzeros⟩ := hz'.inline
          obtain ⟨contents, rfl, hall⟩ := Heap.stores_record_iff.mp hc
          refine allFields_eq_ok hd hn hall hzeros htests ?_
          intro name ref test zero part content hr hm hp htest hz hstores
          have hfield : (Value.record fields).field? name = some part :=
            Fields.get?_of_mem (hn.nodup_iff.mpr hd) hp
          dsimp only
          rw [hfield, Fields.get?_of_mem hd hr]
          exact hpass test (List.mem_map.mpr ⟨_, hm, rfl⟩) _ _ part content zero htest rfl
            (List.mem_map.mpr ⟨_, hp, rfl⟩) (hs name ref part hr hp) hz hstores

/-- Predicates agree with the comparison with the zero value on values that weigh less than this. -/
def AgreesWithin (synthesis : Synthesis) (table : Table) (heap : Heap) (depth : Nat) : Prop :=
  ∀ type value content zero, (synthesis.zeroBody? type).isSome →
    table.IsZero (.named type) zero → table.Outlined (.named type) value →
    heap.Stores value content → value.weight < depth →
      synthesis.isZeroWithin table heap depth type value = .ok (zero.equal content)

variable {depth : Nat}

/-- A predicate agrees when those agree that it delegates to. These are applied to parts that are
held in place and weigh less than the value, so that the depth below suffices for them. -/
theorem AgreesWithin.succ (h : synthesis.AgreesWithin table heap depth)
    (hv : table.validate language = .ok ()) (hclosed : table.ZerosClosed synthesis) :
    synthesis.AgreesWithin table heap (depth + 1) := by
  intro type value content zero ht hz ho hc hw
  obtain ⟨body, hb⟩ := Option.isSome_iff_exists.mp ht
  have hbody := hclosed.bodies type body hb
  rcases Table.zeroBody_cases hbody with ⟨hnone, _⟩ | ⟨shape, hg, _⟩
  · cases hnone
  rw [isZeroWithin_of_body (Table.resolve_of_get? _ hg) hb]
  refine applyTests_eq_ok hv hg hbody hz ho hc ?_
  intro test hm context ref part content zero htest hplace hp ho hz hs
  have hless := Heap.weight_part_lt hplace hp
  refine passes_eq_ok hv htest ho hs hz fun target htarget ho hz => ?_
  have hcalled : target ∈ body.delegates := by
    rw [ZeroBody.delegates_eq_filterMap]
    exact List.mem_filterMap.mpr ⟨test, hm, htarget⟩
  exact h target part content zero (hclosed.delegated hb hcalled) hz ho hs (by omega)

/-- All predicates agree with the comparison with the zero value. -/
theorem agreesWithin (hv : table.validate language = .ok ()) (hclosed : table.ZerosClosed synthesis)
    (heap : Heap) (depth : Nat) : synthesis.AgreesWithin table heap depth := by
  induction depth with
  | zero =>
    intro type value content zero _ _ _ _ hw
    omega
  | succ depth ih => exact ih.succ hv hclosed

/-- What the zero predicate of a type with this zero value has to be. -/
structure DecidesZero (synthesis : Synthesis) (table : Table) (type : String) (zero : Content) :
    Prop where
  /-- The predicate answers for a finite value as a comparison with a new zero value does. -/
  decides : ∀ (heap : Heap) value content, heap.Stores value content →
    (∀ a ∈ heap.storage value, a < heap.size) → table.Outlined (.named type) value →
      ∃ answer, synthesis.isZero table heap type value = .ok answer ∧
        (heap.build zero).2.equal? value (heap.build zero).1 = some answer
  /-- A value that differs from the zero value in some field or item, at any depth, fails. -/
  rejects : ∀ (heap : Heap) value content, heap.Stores value content →
    table.Outlined (.named type) value → content.Differs zero →
      synthesis.isZero table heap type value = .ok false
  /-- The zero value passes, unless some zero expression reads as what is no number. -/
  accepts : table.ZerosAreNumbers → ∀ heap : Heap,
    synthesis.isZero table (heap.build zero).2 type (heap.build zero).1 = .ok true

end Synthesis

/-- Every type of a sound table that has a zero predicate has a zero value, and its predicate
decides equality with it. -/
theorem Table.isZero_of_synthesize {table : Table} {language : Code.Language}
    (hv : table.validate language = .ok ()) {config : Config} {roots : List String}
    {synthesis : Synthesis} (h : table.synthesize language config roots = .ok synthesis)
    {type : String} (ht : (synthesis.zeroBody? type).isSome) :
    ∃ zero, table.zeroContent (.named type) = .ok zero ∧
      synthesis.DecidesZero table type zero := by
  have hclosed := table.zerosClosed_of_synthesize h
  have hname := mem_names_of_hasPredicate ((hclosed.covers type).mp ht)
  obtain ⟨zero, hzero⟩ := exists_zeroContent_named hv hname
  have hz := isZero_of_zeroContent hzero
  have hanswer : ∀ (heap : Heap) value content, heap.Stores value content →
      table.Outlined (.named type) value →
        synthesis.isZero table heap type value = .ok (content.equal zero) := by
    intro heap value content hc ho
    rw [← equal_comm_of_isZero hz trivial ho hc]
    exact Synthesis.agreesWithin hv hclosed heap _ type value content zero ht hz ho hc
      (Nat.lt_succ_self _)
  refine ⟨zero, hzero, ?_, ?_, ?_⟩
  · intro heap value content hc ha ho
    have hfresh := Heap.fresh_build zero heap
    exact ⟨_, hanswer heap value content hc ho,
      Heap.equal?_eq_some (hfresh.grows.stores hc ha).1 hfresh.stores⟩
  · intro heap value content hc ho hd
    rw [hanswer heap value content hc ho, hd.equal_eq_false]
  · intro hn heap
    have hstores := (Heap.fresh_build zero heap).stores
    rw [hanswer _ _ zero hstores (outlined_of_isZero hz trivial hstores),
      equal_self_of_isZero hn hz trivial]

/-- The node with a pair behind its interface is not zero, since its label is not. -/
theorem Table.isZero_ring :
    ∃ synthesis zero, ring.synthesize Reader.language {} ["Ring"] = .ok synthesis ∧
      ring.zeroContent (.named "Node") = .ok zero ∧
      synthesis.isZero ring ringHeap "Node" ringNode = .ok false ∧
      (ringHeap.build zero).2.equal? ringNode (ringHeap.build zero).1 = some false ∧
      synthesis.isZero ring (ringHeap.build zero).2 "Node" (ringHeap.build zero).1 = .ok true := by
  have ht : (ringMethods.zeroBody? "Node").isSome := rfl
  obtain ⟨zero, hzero, hdecides⟩ := isZero_of_synthesize validate_ring synthesize_ring ht
  have hread : Scalar.ofLiteral "0" = .int 0 := by decide +kernel
  have hnumbers : ring.ZerosAreNumbers := by
    intro name type literal x hm hz hx
    simp only [ring, Definition.capability, List.mem_cons, List.not_mem_nil, Prod.mk.injEq,
      Definition.type.injEq, Shape.builtin.injEq, reduceCtorEq, and_false, or_false] at hm
    rcases hm with ⟨_, rfl⟩ | ⟨_, rfl⟩
    · cases hz
      rw [hread] at hx
      cases hx
    · cases hz
  have hcontent : zero = .record [("label", .scalar (.int 0)), ("shape", .unset),
      ("next", .seq [])] := by
    rw [← hread]
    exact Except.ok.inj (hzero.symm.trans rfl)
  subst hcontent
  have hshaped : ring.Shaped ringHeap (fun _ => True) (.named "Node") ringNode :=
    shaped_ringNode trivial
  have ho := hshaped.outlined
  have hfails := hdecides.rejects ringHeap ringNode _ ⟨5, rfl⟩ ho
    (.field List.mem_cons_self rfl (.here rfl))
  obtain ⟨answer, hanswer, hequal⟩ :=
    hdecides.decides ringHeap ringNode _ ⟨5, rfl⟩ (by decide +kernel) ho
  cases hanswer.symm.trans hfails
  exact ⟨ringMethods, _, synthesize_ring, hzero, hfails, hequal,
    hdecides.accepts hnumbers ringHeap⟩

end CopySynth
