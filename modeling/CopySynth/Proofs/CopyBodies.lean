import CopySynth.Copy.Synthesis
import CopySynth.Proofs.Aliases

/-!
# What a copy body consists of

A copy body was made from one duplicate per constituent of the definition. The names queued on its
behalf are the helpers it calls, in order, and each of them is a type of the table with a body of
its own.
-/

namespace CopySynth.Table

variable {table : Table}

/-- A constituent is assigned if it is a value type. Otherwise it is named, and what its name leads
to decides. -/
theorem elementCopy_cases {owner slot : String} {ref : Ref} {copy : ElementCopy}
    (h : table.elementCopy owner slot ref = .ok copy) :
    (table.isValue ref (slotContext slot owner) = .ok true ∧ copy = .assign) ∨
    ∃ target canonical shape, ref = .named target ∧ table.LeadsTo target canonical shape ∧
      table.isValue ref (slotContext slot owner) = .ok false ∧
      copy = if shape.isCapability then .capability canonical
        else if shape.isBuiltin then .external canonical else .helper canonical := by
  unfold elementCopy at h
  obtain ⟨value, hv, h⟩ := bind_eq_ok_iff.mp h
  cases value with
  | true => exact .inl ⟨hv, (pure_eq_ok_iff.mp h).symm⟩
  | false =>
    cases ref with
    | inline fields => exact absurd h throw_ne_ok
    | named target =>
      obtain ⟨⟨canonical, shape⟩, hr, h⟩ := bind_eq_ok_iff.mp h
      have hl := leadsTo_of_resolve (lifted_eq_ok_iff.mp hr)
      refine .inr ⟨target, canonical, shape, rfl, hl, hv, ?_⟩
      dsimp only at h
      split at h
      · rename_i hc
        rw [if_pos hc]
        exact (pure_eq_ok_iff.mp h).symm
      · rename_i hc
        rw [if_neg hc]
        split at h
        · rename_i hb
          rw [if_pos hb]
          exact (pure_eq_ok_iff.mp h).symm
        · rename_i hb
          rw [if_neg hb]
          exact (pure_eq_ok_iff.mp h).symm

/-- The helper of a constituent belongs to the type its name leads to, which is no builtin. -/
theorem leadsTo_of_elementCopy {owner slot helper : String} {ref : Ref} {copy : ElementCopy}
    (h : table.elementCopy owner slot ref = .ok copy) (hc : copy.helper? = some helper) :
    ∃ target shape, ref = .named target ∧ table.LeadsTo target helper shape ∧
      shape.isBuiltin = false := by
  rcases elementCopy_cases h with ⟨_, rfl⟩ | ⟨target, canonical, shape, hr, hl, _, rfl⟩
  · simp [ElementCopy.helper?] at hc
  · split at hc
    · simp [ElementCopy.helper?] at hc
    · split at hc
      · simp [ElementCopy.helper?] at hc
      · rename_i hb
        simp only [ElementCopy.helper?, Option.some.injEq] at hc
        subst hc
        exact ⟨target, shape, hr, hl, by simpa using hb⟩

/-- The duplicates of a record are those of its fields, under the same names in the same order. -/
theorem forall₂_fields_of_spelledCopy {owner : String} {fields : List (String × Ref)}
    {body : CopyBody} (h : table.spelledCopy owner (.record fields) = .ok body) :
    ∃ copies, body = .record copies ∧ List.Forall₂ (fun field copy => copy.1 = field.1 ∧
      table.elementCopy owner field.1 field.2 = .ok copy.2) fields copies := by
  obtain ⟨copies, hc, h⟩ := bind_eq_ok_iff.mp h
  cases pure_eq_ok_iff.mp h
  refine ⟨copies, rfl, (mapM_eq_ok_iff.mp hc).imp fun field copy hf => ?_⟩
  obtain ⟨element, he, hf⟩ := bind_eq_ok_iff.mp hf
  cases pure_eq_ok_iff.mp hf
  exact ⟨rfl, he⟩

/-- The duplicates a body is spelled out with are those of the constituents, in order. -/
theorem forall₂_slots_of_spelledCopy {owner : String} {shape : Shape} {body : CopyBody}
    (h : table.spelledCopy owner shape = .ok body) :
    List.Forall₂ (fun slot copy => table.elementCopy owner slot.1 slot.2 = .ok copy)
      shape.slots body.elements := by
  cases shape with
  | builtin type =>
    cases pure_eq_ok_iff.mp h
    exact .nil
  | fixed length element =>
    obtain ⟨copy, hc, h⟩ := bind_eq_ok_iff.mp h
    cases pure_eq_ok_iff.mp h
    exact .cons hc .nil
  | dynamic element =>
    obtain ⟨copy, hc, h⟩ := bind_eq_ok_iff.mp h
    cases pure_eq_ok_iff.mp h
    exact .cons hc .nil
  | record fields =>
    obtain ⟨copies, rfl, hc⟩ := forall₂_fields_of_spelledCopy h
    show List.Forall₂ _ fields (copies.map Prod.snd)
    rw [List.forall₂_map_right_iff]
    exact hc.imp fun field copy hf => hf.2

/-- A copy fails to be spelled out as one of its constituents does. -/
theorem fault_of_spelledCopy {owner : String} {shape : Shape} {fault : GenerationError}
    (h : table.spelledCopy owner shape = .error fault) :
    ∃ slot ∈ shape.slots, table.elementCopy owner slot.1 slot.2 = .error fault := by
  cases shape with
  | builtin => cases h
  | fixed | dynamic =>
    rcases bind_eq_error_iff.mp h with hcopy | ⟨_, _, h⟩
    · exact ⟨_, List.mem_singleton_self _, hcopy⟩
    · cases h
  | record fields =>
    rcases bind_eq_error_iff.mp h with hfields | ⟨_, _, h⟩
    · obtain ⟨field, hf, hfield⟩ := exists_of_mapM_eq_error hfields
      rcases bind_eq_error_iff.mp hfield with hcopy | ⟨_, _, h⟩
      · exact ⟨field, hf, hcopy⟩
      · cases h
    · cases h

theorem slotHelpers_eq {owner : String} {slots : List (String × Ref)} {copies : List ElementCopy}
    (h : List.Forall₂ (fun slot copy => table.elementCopy owner slot.1 slot.2 = .ok copy)
      slots copies) :
    table.slotHelpers owner slots = copies.filterMap ElementCopy.helper? := by
  induction h with
  | nil => rfl
  | @cons slot copy slots copies hc _ ih =>
    obtain ⟨name, ref⟩ := slot
    have hc' : table.elementCopy owner name ref = .ok copy := hc
    simp only [slotHelpers, hc', ih, List.filterMap_cons]
    cases copy.helper? <;> rfl

/-- The body of a type that is no alias: none of its own for a builtin, plain duplication for a
value type, spelled out otherwise. -/
theorem copyBody_cases {name : String} {shape : Shape} {body : CopyBody}
    (hg : table.get? name = some (.type shape)) (h : table.copyBody name = .ok body) :
    (shape.isBuiltin = true ∧ body = .trivial) ∨
    (shape.isBuiltin = false ∧ table.isValueName name "copy request" = .ok true ∧ body = .shallow) ∨
    (shape.isBuiltin = false ∧ table.isValueName name "copy request" = .ok false ∧
      table.spelledCopy name shape = .ok body) := by
  have hr : lifted (table.resolve name "copy request") = .ok (name, shape) :=
    lifted_eq_ok_iff.mpr (resolve_of_get? _ hg)
  simp only [copyBody, hr] at h
  change (if shape.isCapability = true then _ else _) = _ at h
  split at h
  · exact absurd h throw_ne_ok
  · split at h
    · rename_i hb
      exact .inl ⟨hb, (pure_eq_ok_iff.mp h).symm⟩
    · rename_i hb
      have hb' : shape.isBuiltin = false := by simpa using hb
      obtain ⟨value, hv, h⟩ := bind_eq_ok_iff.mp h
      cases value with
      | true => exact .inr (.inl ⟨hb', hv, (pure_eq_ok_iff.mp h).symm⟩)
      | false => exact .inr (.inr ⟨hb', hv, h⟩)

/-- A copy that goes through fields is that of a record, and duplicates each of its fields. -/
theorem forall₂_fields_of_copyBody {name : String} {shape : Shape}
    {copies : List (String × ElementCopy)} (hg : table.get? name = some (.type shape))
    (h : table.copyBody name = .ok (.record copies)) :
    ∃ fields, shape = .record fields ∧ List.Forall₂ (fun field copy => copy.1 = field.1 ∧
      table.elementCopy name field.1 field.2 = .ok copy.2) fields copies := by
  rcases copyBody_cases hg h with ⟨_, hbody⟩ | ⟨_, _, hbody⟩ | ⟨_, _, hs⟩
  · cases hbody
  · cases hbody
  cases shape with
  | builtin => cases pure_eq_ok_iff.mp hs
  | fixed | dynamic =>
    obtain ⟨_, _, hs⟩ := bind_eq_ok_iff.mp hs
    cases pure_eq_ok_iff.mp hs
  | record fields =>
    obtain ⟨_, ⟨⟩, hall⟩ := forall₂_fields_of_spelledCopy hs
    exact ⟨fields, rfl, hall⟩

/-- A builtin, and nothing else, has no body of its own. -/
theorem trivial_iff {name : String} {shape : Shape} {body : CopyBody}
    (hg : table.get? name = some (.type shape)) (h : table.copyBody name = .ok body) :
    body = .trivial ↔ shape.isBuiltin = true := by
  rcases copyBody_cases hg h with ⟨hb, rfl⟩ | ⟨hb, _, rfl⟩ | ⟨hb, _, hs⟩
  · simp [hb]
  · simp [hb]
  · rw [hb]
    cases shape with
    | builtin type => simp [Shape.isBuiltin] at hb
    | fixed | dynamic | record =>
      obtain ⟨made, _, hp⟩ := bind_eq_ok_iff.mp hs
      cases pure_eq_ok_iff.mp hp
      simp

/-- What is queued on behalf of a body are the helpers it calls. -/
theorem copyRequests_eq {name : String} {shape : Shape} {body : CopyBody}
    (hg : table.get? name = some (.type shape)) (h : table.copyBody name = .ok body) :
    table.copyRequests name = (name, body.helpers) := by
  rw [copyRequests, resolve_of_get? _ hg]
  dsimp only
  rcases copyBody_cases hg h with ⟨hb, rfl⟩ | ⟨_, hv, rfl⟩ | ⟨_, hv, hs⟩
  · cases shape with
    | builtin type => split <;> rfl
    | fixed | dynamic | record => simp [Shape.isBuiltin] at hb
  · rw [hv]
    rfl
  · rw [hv]
    dsimp only
    rw [slotHelpers_eq (forall₂_slots_of_spelledCopy hs)]
    rfl

/-- A helper that a body calls belongs to the type that the name of a constituent leads to. -/
theorem leadsTo_of_mem_helpers {name helper : String} {shape : Shape} {body : CopyBody}
    (hg : table.get? name = some (.type shape)) (h : table.copyBody name = .ok body)
    (hm : helper ∈ body.helpers) :
    ∃ slot ∈ shape.slots, ∃ target found, slot.2 = .named target ∧
      table.LeadsTo target helper found ∧ found.isBuiltin = false := by
  rcases copyBody_cases hg h with ⟨_, rfl⟩ | ⟨_, _, rfl⟩ | ⟨_, _, hs⟩
  · simp [CopyBody.helpers, CopyBody.elements] at hm
  · simp [CopyBody.helpers, CopyBody.elements] at hm
  · obtain ⟨copy, hcopy, hc⟩ := List.mem_filterMap.mp hm
    obtain ⟨slot, hslot, he⟩ := exists_of_mem_right (forall₂_slots_of_spelledCopy hs) hcopy
    exact ⟨slot, hslot, leadsTo_of_elementCopy he hc⟩

/-- A helper that a body calls belongs to a type of the table that is no builtin. -/
theorem get?_of_mem_helpers {name helper : String} {shape : Shape} {body : CopyBody}
    (hg : table.get? name = some (.type shape)) (h : table.copyBody name = .ok body)
    (hm : helper ∈ body.helpers) :
    ∃ shape, table.get? helper = some (.type shape) ∧ shape.isBuiltin = false := by
  obtain ⟨_, _, _, found, _, hl, hb⟩ := leadsTo_of_mem_helpers hg h hm
  exact ⟨found, hl.get?, hb⟩

end CopySynth.Table
