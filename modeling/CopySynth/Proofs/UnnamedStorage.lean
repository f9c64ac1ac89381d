import CopySynth.Proofs.CopyBodies
import CopySynth.Proofs.Storage
import CopySynth.Proofs.ZeroBodies

/-!
# Anonymous records that own storage

A method can only be called for a type with a name. So an anonymous record that owns storage can
neither be copied nor be tested where it stands. In a table that passes its check this is the only
reason why a type has no copy body or no zero predicate.
-/

namespace CopySynth.Table

/-- A constituent is an anonymous record that owns storage. -/
def Unnamed (table : Table) (ref : Ref) : Prop :=
  ∃ fields, ref = .inline fields ∧ table.OwningRef (.inline fields)

/-- A type has an anonymous record that owns storage as a field or as its element. -/
def HidesStorage (table : Table) (shape : Shape) : Prop :=
  ∃ slot ∈ shape.slots, table.Unnamed slot.2

variable {table : Table} {language : Code.Language} {owner : String} {shape : Shape} {ref : Ref}

theorem HidesStorage.owning (h : table.HidesStorage shape)
    (hg : table.get? owner = some (.type shape)) : table.Owning owner := by
  obtain ⟨slot, hs, fields, href, name, hu, ho⟩ := h
  rw [← href] at hu
  cases shape with
  | builtin => exact absurd hs List.not_mem_nil
  | dynamic => exact .owner hg rfl
  | fixed =>
    cases List.mem_singleton.mp hs
    exact .part ⟨_, hg, .fixed hu⟩ ho
  | record => exact .part ⟨_, hg, .field hs hu⟩ ho

/-- A predicate tests all constituents. -/
theorem exists_tested_of_slot (owner : String) (hp : shape.hasPredicate = true)
    {slot : String × Ref} (hs : slot ∈ shape.slots) :
    ∃ context, (context, slot.2) ∈ shape.testedSlots owner := by
  cases shape with
  | builtin | dynamic => cases hp
  | fixed =>
    cases List.mem_singleton.mp hs
    exact ⟨_, List.mem_singleton_self _⟩
  | record => exact ⟨_, List.mem_map_of_mem hs⟩

theorem mem_names_of_slot (hv : table.validate language = .ok ())
    (hg : table.get? owner = some (.type shape)) {slot : String × Ref} (hs : slot ∈ shape.slots)
    (name : String) (hu : slot.2.Uses name) : name ∈ table.names :=
  (validate_eq_ok_iff.mp hv).1 owner _ name hg (Definition.uses_iff_exists_slot.mpr ⟨slot, hs, hu⟩)

/-! ## Copies -/

theorem elementCopy_of_validate (hv : table.validate language = .ok ())
    (hr : ∀ name, ref.Uses name → name ∈ table.names) (slot : String) :
    (¬ table.Unnamed ref ∧ ∃ copy, table.elementCopy owner slot ref = .ok copy) ∨
      (table.Unnamed ref ∧ table.elementCopy owner slot ref =
        .error (.unsupportedShape owner (.unnamedCopy (slotContext slot owner)))) := by
  rcases isValue_of_validate hv hr (slotContext slot owner) with ⟨hno, hvalue⟩ | ⟨ho, hvalue⟩
  · refine .inl ⟨?_, .assign, ?_⟩
    · rintro ⟨fields, rfl, ho⟩
      exact hno ho
    · unfold elementCopy
      dsimp only
      rw [hvalue]
      rfl
  · cases ref with
    | inline fields =>
      refine .inr ⟨⟨fields, rfl, ho⟩, ?_⟩
      unfold elementCopy
      dsimp only
      rw [hvalue]
      rfl
    | named target =>
      refine .inl ⟨?_, ?_⟩
      · rintro ⟨fields, href, _⟩
        cases href
      · obtain ⟨canonical, leads, hl⟩ :=
          exists_resolve_of_validate hv (hr target .named) (slotContext slot owner)
        unfold elementCopy
        dsimp only
        rw [hvalue, hl]
        change ∃ copy, (if leads.isCapability then _ else _) = _
        split
        · exact ⟨_, rfl⟩
        · split
          · exact ⟨_, rfl⟩
          · exact ⟨_, rfl⟩

/-- A copy fails to be spelled out only at an anonymous record that owns storage. -/
theorem spelledCopy_of_validate (hv : table.validate language = .ok ())
    (hg : table.get? owner = some (.type shape)) :
    (¬ table.HidesStorage shape ∧ ∃ body, table.spelledCopy owner shape = .ok body) ∨
      (table.HidesStorage shape ∧ ∃ context, table.spelledCopy owner shape =
        .error (.unsupportedShape owner (.unnamedCopy context))) := by
  cases h : table.spelledCopy owner shape with
  | ok body =>
    refine .inl ⟨?_, body, rfl⟩
    rintro ⟨slot, hs, hunnamed⟩
    obtain ⟨copy, _, hcopy⟩ := exists_of_mem_left (forall₂_slots_of_spelledCopy h) hs
    rcases elementCopy_of_validate hv (mem_names_of_slot hv hg hs) slot.1 with ⟨hno, _⟩ | ⟨_, he⟩
    · exact hno hunnamed
    · rw [he] at hcopy
      cases hcopy
  | error fault =>
    obtain ⟨slot, hs, hslot⟩ := fault_of_spelledCopy h
    rcases elementCopy_of_validate hv (mem_names_of_slot hv hg hs) slot.1 with
      ⟨_, copy, hcopy⟩ | ⟨hunnamed, he⟩
    · rw [hcopy] at hslot
      cases hslot
    · rw [he] at hslot
      cases hslot
      exact .inr ⟨⟨slot, hs, hunnamed⟩, _, rfl⟩

/-- What is no interface has a copy body unless it hides storage. -/
theorem copyBody_of_validate (hv : table.validate language = .ok ())
    (hg : table.get? owner = some (.type shape)) (hc : shape.isCapability = false) :
    (¬ table.HidesStorage shape ∧ ∃ body, table.copyBody owner = .ok body) ∨
      (table.HidesStorage shape ∧ ∃ context, table.copyBody owner =
        .error (.unsupportedShape owner (.unnamedCopy context))) := by
  have hn := mem_names_of_get? hg
  unfold copyBody
  rw [resolve_of_get? _ hg]
  change (_ ∧ ∃ body, (if shape.isCapability then _ else if shape.isBuiltin then _ else _) = _) ∨
    (_ ∧ ∃ context, (if shape.isCapability then _ else if shape.isBuiltin then _ else _) = _)
  rw [if_neg (by simp [hc])]
  cases hb : shape.isBuiltin with
  | true =>
    refine .inl ⟨?_, _, rfl⟩
    rintro ⟨slot, hs, _⟩
    cases shape with
    | builtin => exact absurd hs List.not_mem_nil
    | fixed | dynamic | record => cases hb
  | false =>
    rw [if_neg (by decide)]
    rcases isValueName_of_validate hv hn "copy request" with ⟨hno, hvalue⟩ | ⟨_, hvalue⟩
    · rw [hvalue]
      exact .inl ⟨fun h => hno (h.owning hg), _, rfl⟩
    · rw [hvalue]
      exact spelledCopy_of_validate hv hg

/-! ## Zero predicates -/

theorem zeroTest_of_validate (hv : table.validate language = .ok ())
    (hr : ∀ name, ref.Uses name → name ∈ table.names) (context : String) :
    (¬ table.Unnamed ref ∧ ∃ test, table.zeroTest owner context ref = .ok test) ∨
      (table.Unnamed ref ∧ table.zeroTest owner context ref =
        .error (.unsupportedShape owner (.unnamedPredicate context))) := by
  cases ref with
  | inline fields =>
    rcases isValue_of_validate hv hr context with ⟨hno, hvalue⟩ | ⟨ho, hvalue⟩
    · refine .inl ⟨?_, .zeroValue none, by rw [zeroTest, hvalue]; rfl⟩
      rintro ⟨other, href, ho⟩
      cases href
      exact hno ho
    · exact .inr ⟨⟨fields, rfl, ho⟩, by rw [zeroTest, hvalue]; rfl⟩
  | named target =>
    refine .inl ⟨?_, ?_⟩
    · rintro ⟨fields, href, _⟩
      cases href
    obtain ⟨canonical, leads, hl⟩ := exists_resolve_of_validate hv (hr target .named) context
    have hn := mem_names_of_get? (get?_of_resolve hl)
    rw [zeroTest, hl, lifted, ok_bind]
    dsimp only
    cases leads.zeroLiteral? with
    | some literal => exact ⟨_, rfl⟩
    | none =>
      dsimp only
      rcases isValueName_of_validate hv hn context with ⟨_, hvalue⟩ | ⟨_, hvalue⟩
      · exact ⟨.zeroValue (some canonical), by rw [hvalue]; rfl⟩
      · refine ⟨partTest canonical leads, ?_⟩
        rw [hvalue, ok_bind, if_neg (by decide)]
        cases leads <;> rfl

/-- A predicate fails to be spelled out only at an anonymous record that owns storage. -/
theorem spelledZero_of_validate (hv : table.validate language = .ok ())
    (hg : table.get? owner = some (.type shape)) (hp : shape.hasPredicate = true) :
    (¬ table.HidesStorage shape ∧ ∃ body, table.spelledZero owner shape = .ok body) ∨
      (table.HidesStorage shape ∧ ∃ context, table.spelledZero owner shape =
        .error (.unsupportedShape owner (.unnamedPredicate context))) := by
  cases h : table.spelledZero owner shape with
  | ok body =>
    refine .inl ⟨?_, body, rfl⟩
    rintro ⟨slot, hs, hunnamed⟩
    obtain ⟨spelled, rfl⟩ := exists_of_spelledZero hp h
    obtain ⟨context, ht⟩ := exists_tested_of_slot owner hp hs
    obtain ⟨test, _, htest⟩ := exists_of_mem_left (forall₂_slots_of_spelledZero h) ht
    rcases zeroTest_of_validate hv (mem_names_of_slot hv hg hs) context with ⟨hno, _⟩ | ⟨_, he⟩
    · exact hno hunnamed
    · rw [he] at htest
      cases htest
  | error fault =>
    obtain ⟨⟨context, ref⟩, ht, htest⟩ := fault_of_spelledZero hp h
    obtain ⟨field, hs⟩ := exists_slot_of_tested ht
    rcases zeroTest_of_validate hv (mem_names_of_slot hv hg hs) context with
      ⟨_, test, hok⟩ | ⟨hunnamed, he⟩
    · rw [hok] at htest
      cases htest
    · rw [he] at htest
      cases htest
      exact .inr ⟨⟨(field, ref), hs, hunnamed⟩, _, rfl⟩

/-- A record or a sequence of fixed length has a predicate unless it hides storage. -/
theorem zeroBody_of_validate (hv : table.validate language = .ok ())
    (hg : table.get? owner = some (.type shape)) (hp : shape.hasPredicate = true) :
    (¬ table.HidesStorage shape ∧ ∃ body, table.zeroBody owner = .ok body) ∨
      (table.HidesStorage shape ∧ ∃ context, table.zeroBody owner =
        .error (.unsupportedShape owner (.unnamedPredicate context))) := by
  have hn := mem_names_of_get? hg
  have hl : table.lookup owner predicateContext = .ok (.type shape) := by rw [lookup, hg]
  rw [zeroBody, hl, lifted, ok_bind]
  dsimp only
  rw [if_pos hp]
  rcases isValueName_of_validate hv hn predicateContext with ⟨hno, hvalue⟩ | ⟨_, hvalue⟩
  · rw [hvalue]
    exact .inl ⟨fun h => hno (h.owning hg), _, rfl⟩
  · rw [hvalue]
    exact spelledZero_of_validate hv hg hp

end CopySynth.Table
