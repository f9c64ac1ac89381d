import CopySynth.Copy.Synthesis
import CopySynth.Proofs.Aliases
import CopySynth.Zero.Synthesis

/-!
# What a zero predicate consists of

A predicate was made from one test per constituent of the definition, unless one comparison is
enough. The names queued on its behalf are the types it delegates to, in order, and each of them is
a type of the table with a predicate of its own.
-/

namespace CopySynth

/-- The tests of a predicate, in order. -/
def ZeroBody.tests : ZeroBody → List ZeroTest
  | .equalsZeroValue => []
  | .allFields tests => tests.map Prod.snd
  | .allElements test => [test]

theorem ZeroBody.delegates_eq_filterMap (body : ZeroBody) :
    body.delegates = body.tests.filterMap ZeroTest.delegate? := by
  cases body with
  | equalsZeroValue => rfl
  | allFields fields =>
    simp only [delegates, tests, List.filterMap_map]
    rfl
  | allElements test =>
    simp only [delegates, tests, List.filterMap_cons]
    cases test.delegate? <;> rfl

namespace Table

variable {table : Table}

/-- The test a constituent gets if it has no zero expression and is no value type. -/
def partTest (canonical : String) : Shape → ZeroTest
  | .dynamic _ => .empty true
  | .builtin type => if type.marker = .externalSequence then .empty false else .unset
  | .fixed _ _ | .record _ => .delegate canonical

/-- An anonymous record is tested only as a value. For a name, the zero expression of the builtin it
leads to comes first, then the comparison of value types. -/
theorem zeroTest_cases {owner context : String} {ref : Ref} {test : ZeroTest}
    (h : table.zeroTest owner context ref = .ok test) :
    (∃ fields, ref = .inline fields ∧ test = .zeroValue none) ∨
    ∃ target canonical shape, ref = .named target ∧ table.LeadsTo target canonical shape ∧
      ((∃ literal, shape.zeroLiteral? = some literal ∧ test = .literal literal) ∨
        (table.isValueName canonical context = .ok true ∧ test = .zeroValue (some canonical)) ∨
        (table.isValueName canonical context = .ok false ∧ test = partTest canonical shape)) := by
  cases ref with
  | inline fields =>
    obtain ⟨value, hv, h⟩ := bind_eq_ok_iff.mp h
    cases value with
    | true => exact .inl ⟨fields, rfl, (pure_eq_ok_iff.mp h).symm⟩
    | false => exact absurd h throw_ne_ok
  | named target =>
    obtain ⟨⟨canonical, shape⟩, hr, h⟩ := bind_eq_ok_iff.mp h
    refine .inr ⟨target, canonical, shape, rfl, leadsTo_of_resolve (lifted_eq_ok_iff.mp hr), ?_⟩
    dsimp only at h
    cases hz : shape.zeroLiteral? with
    | some literal =>
      rw [hz] at h
      exact .inl ⟨literal, rfl, (pure_eq_ok_iff.mp h).symm⟩
    | none =>
      rw [hz] at h
      obtain ⟨value, hv, h⟩ := bind_eq_ok_iff.mp h
      cases value with
      | true => exact .inr (.inl ⟨hv, (pure_eq_ok_iff.mp h).symm⟩)
      | false =>
        refine .inr (.inr ⟨hv, ?_⟩)
        cases shape with
        | dynamic | fixed | record => exact (pure_eq_ok_iff.mp h).symm
        | builtin type =>
          have h := pure_eq_ok_iff.mp h
          rw [partTest, ← h]

/-- A constituent is delegated to the type its name leads to, which has a predicate. -/
theorem leadsTo_of_zeroTest {owner context target : String} {ref : Ref} {test : ZeroTest}
    (h : table.zeroTest owner context ref = .ok test) (ht : test.delegate? = some target) :
    ∃ name shape, ref = .named name ∧ table.LeadsTo name target shape ∧
      shape.hasPredicate = true := by
  rcases zeroTest_cases h with ⟨_, _, rfl⟩ | ⟨name, canonical, shape, hr, hl, hcase⟩
  · simp [ZeroTest.delegate?] at ht
  · rcases hcase with ⟨_, _, rfl⟩ | ⟨_, rfl⟩ | ⟨_, rfl⟩
    · simp [ZeroTest.delegate?] at ht
    · simp [ZeroTest.delegate?] at ht
    · cases shape with
      | dynamic => simp [partTest, ZeroTest.delegate?] at ht
      | builtin type =>
        simp only [partTest] at ht
        split at ht <;> simp [ZeroTest.delegate?] at ht
      | fixed | record =>
        simp only [partTest, ZeroTest.delegate?, Option.some.injEq] at ht
        subst ht
        exact ⟨name, _, hr, hl, rfl⟩

/-- The predicate of a record has one test for each field, in order. -/
theorem forall₂_fields_of_spelledZero {owner : String} {fields : List (String × Ref)}
    {body : ZeroBody} (h : table.spelledZero owner (.record fields) = .ok (some body)) :
    ∃ tests, body = .allFields tests ∧ List.Forall₂ (fun field test => test.1 = field.1 ∧
      table.zeroTest owner (fieldContext field.1 owner) field.2 = .ok test.2) fields tests := by
  obtain ⟨tests, ht, h⟩ := bind_eq_ok_iff.mp h
  cases pure_eq_ok_iff.mp h
  refine ⟨tests, rfl, (mapM_eq_ok_iff.mp ht).imp fun field test hf => ?_⟩
  obtain ⟨found, hfound, hf⟩ := bind_eq_ok_iff.mp hf
  cases pure_eq_ok_iff.mp hf
  exact ⟨rfl, hfound⟩

/-- The tests a predicate is spelled out with are those of the constituents, in order. -/
theorem forall₂_slots_of_spelledZero {owner : String} {shape : Shape} {body : ZeroBody}
    (h : table.spelledZero owner shape = .ok (some body)) :
    List.Forall₂ (fun slot test => table.zeroTest owner slot.1 slot.2 = .ok test)
      (shape.testedSlots owner) body.tests := by
  cases shape with
  | builtin type => exact absurd h throw_ne_ok
  | dynamic element => cases pure_eq_ok_iff.mp h
  | fixed length element =>
    obtain ⟨test, ht, h⟩ := bind_eq_ok_iff.mp h
    cases pure_eq_ok_iff.mp h
    exact .cons ht .nil
  | record fields =>
    obtain ⟨tests, rfl, ht⟩ := forall₂_fields_of_spelledZero h
    show List.Forall₂ _ (fields.map _) (tests.map Prod.snd)
    rw [List.forall₂_map_right_iff, List.forall₂_map_left_iff]
    exact ht.imp fun field test hf => hf.2

/-- A predicate fails to be spelled out as one of its constituents does. -/
theorem fault_of_spelledZero {owner : String} {shape : Shape} {fault : GenerationError}
    (hp : shape.hasPredicate = true) (h : table.spelledZero owner shape = .error fault) :
    ∃ slot ∈ shape.testedSlots owner, table.zeroTest owner slot.1 slot.2 = .error fault := by
  cases shape with
  | builtin | dynamic => cases hp
  | fixed =>
    rcases bind_eq_error_iff.mp h with htest | ⟨_, _, h⟩
    · exact ⟨_, List.mem_singleton_self _, htest⟩
    · cases h
  | record fields =>
    rcases bind_eq_error_iff.mp h with hfields | ⟨_, _, h⟩
    · obtain ⟨field, hf, hfield⟩ := exists_of_mapM_eq_error hfields
      rcases bind_eq_error_iff.mp hfield with htest | ⟨_, _, h⟩
      · exact ⟨_, List.mem_map_of_mem hf, htest⟩
      · cases h
    · cases h

theorem slotDelegates_eq {owner : String} {slots : List (String × Ref)} {tests : List ZeroTest}
    (h : List.Forall₂ (fun slot test => table.zeroTest owner slot.1 slot.2 = .ok test)
      slots tests) :
    table.slotDelegates owner slots = tests.filterMap ZeroTest.delegate? := by
  induction h with
  | nil => rfl
  | @cons slot test slots tests ht _ ih =>
    obtain ⟨context, ref⟩ := slot
    have ht' : table.zeroTest owner context ref = .ok test := ht
    simp only [slotDelegates, ht', ih, List.filterMap_cons]
    cases test.delegate? <;> rfl

/-- A predicate is spelled out for every type that can have one. -/
theorem exists_of_spelledZero {owner : String} {shape : Shape} {body : Option ZeroBody}
    (hs : shape.hasPredicate = true) (h : table.spelledZero owner shape = .ok body) :
    ∃ spelled, body = some spelled := by
  cases shape with
  | builtin | dynamic => cases hs
  | fixed | record =>
    obtain ⟨tests, _, h⟩ := bind_eq_ok_iff.mp h
    exact ⟨_, (pure_eq_ok_iff.mp h).symm⟩

/-- The predicate of a name: none for an alias and a growable sequence, one comparison for a value
type, spelled out otherwise. -/
theorem zeroBody_cases {name : String} {body : Option ZeroBody}
    (h : table.zeroBody name = .ok body) :
    (body = none ∧ ∃ type, table.get? name = some type ∧
      ∀ shape, type = .type shape → shape.hasPredicate = false) ∨
    ∃ shape, table.get? name = some (.type shape) ∧ shape.hasPredicate = true ∧
      ((table.isValueName name predicateContext = .ok true ∧ body = some .equalsZeroValue) ∨
        (table.isValueName name predicateContext = .ok false ∧
          ∃ spelled, body = some spelled ∧ table.spelledZero name shape = .ok (some spelled))) := by
  obtain ⟨type, hl, h⟩ := bind_eq_ok_iff.mp h
  have hg := get?_of_lookup (lifted_eq_ok_iff.mp hl)
  cases type with
  | aliasOf target =>
    exact .inl ⟨(pure_eq_ok_iff.mp h).symm, _, hg, fun shape hs => by cases hs⟩
  | type shape =>
    cases shape with
    | builtin type => exact absurd h throw_ne_ok
    | dynamic element =>
      refine .inl ⟨(pure_eq_ok_iff.mp h).symm, _, hg, fun shape hs => ?_⟩
      cases hs
      rfl
    | fixed | record =>
      refine .inr ⟨_, hg, rfl, ?_⟩
      obtain ⟨value, hv, h⟩ := bind_eq_ok_iff.mp h
      cases value with
      | true => exact .inl ⟨hv, (pure_eq_ok_iff.mp h).symm⟩
      | false =>
        rw [if_neg Bool.false_ne_true] at h
        obtain ⟨spelled, rfl⟩ := exists_of_spelledZero rfl h
        exact .inr ⟨hv, spelled, rfl, h⟩

/-- What is queued on behalf of a predicate are the types it delegates to. -/
theorem zeroRequests_eq {name : String} {body : Option ZeroBody}
    (h : table.zeroBody name = .ok body) :
    table.zeroRequests name = (body.map ZeroBody.delegates).getD [] := by
  rcases zeroBody_cases h with ⟨rfl, type, hg, hno⟩ | ⟨shape, hg, _, hcase⟩
  · rw [zeroRequests, hg]
    cases type with
    | aliasOf target => rfl
    | type shape =>
      have hshape := hno shape rfl
      cases shape with
      | fixed | record => cases hshape
      | builtin | dynamic =>
        cases table.isValueName name predicateContext with
        | error => rfl
        | ok value => cases value <;> rfl
  · rw [zeroRequests, hg]
    rcases hcase with ⟨hv, rfl⟩ | ⟨hv, spelled, rfl, hs⟩
    · rw [hv]
      rfl
    · rw [hv]
      dsimp only
      rw [slotDelegates_eq (forall₂_slots_of_spelledZero hs), ← ZeroBody.delegates_eq_filterMap]
      rfl

/-- What is tested of a type are its constituents. -/
theorem exists_slot_of_tested {owner context : String} {ref : Ref} {shape : Shape}
    (h : (context, ref) ∈ shape.testedSlots owner) : ∃ field, (field, ref) ∈ shape.slots := by
  cases shape with
  | builtin | dynamic => exact absurd h List.not_mem_nil
  | fixed =>
    cases List.mem_singleton.mp h
    exact ⟨_, List.mem_singleton_self _⟩
  | record =>
    obtain ⟨⟨field, _⟩, hf, ⟨⟩⟩ := List.mem_map.mp h
    exact ⟨field, hf⟩

/-- A predicate delegates to the type that the name of a constituent leads to. -/
theorem leadsTo_of_mem_delegates {name target : String} {body : ZeroBody}
    (h : table.zeroBody name = .ok (some body)) (hm : target ∈ body.delegates) :
    ∃ shape, table.get? name = some (.type shape) ∧ shape.hasPredicate = true ∧
      ∃ slot ∈ shape.slots, ∃ part found, slot.2 = .named part ∧
        table.LeadsTo part target found ∧ found.hasPredicate = true := by
  rcases zeroBody_cases h with ⟨hnone, _⟩ | ⟨shape, hg, hp, hcase⟩
  · cases hnone
  · rcases hcase with ⟨_, hb⟩ | ⟨_, spelled, hb, hs⟩
    · cases hb
      simp [ZeroBody.delegates] at hm
    · cases hb
      rw [ZeroBody.delegates_eq_filterMap] at hm
      obtain ⟨test, htest, ht⟩ := List.mem_filterMap.mp hm
      obtain ⟨⟨context, ref⟩, htested, he⟩ :=
        exists_of_mem_right (forall₂_slots_of_spelledZero hs) htest
      obtain ⟨field, hslot⟩ := exists_slot_of_tested htested
      exact ⟨shape, hg, hp, (field, ref), hslot, leadsTo_of_zeroTest he ht⟩

/-- A type that a predicate delegates to belongs to the table and has a predicate. -/
theorem get?_of_mem_delegates {name target : String} {body : ZeroBody}
    (h : table.zeroBody name = .ok (some body)) (hm : target ∈ body.delegates) :
    ∃ shape, table.get? target = some (.type shape) ∧ shape.hasPredicate = true := by
  obtain ⟨_, _, _, _, _, _, found, _, hl, hp⟩ := leadsTo_of_mem_delegates h hm
  exact ⟨found, hl.get?, hp⟩

end Table

end CopySynth
