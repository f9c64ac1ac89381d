import CopySynth.Proofs.Reordering

/-!
# Bodies of reordered types

In tables that pass their checks and differ at most in the order of fields, a constituent is
duplicated and tested in the same way. So a type has a copy body in both tables or in none, and the
bodies differ at most in the order of their fields; the same holds of its zero predicate.
-/

namespace CopySynth

/-- Two copy bodies differ at most in the order of fields. -/
inductive CopyBody.Reordered : CopyBody → CopyBody → Prop
  | refl (body : CopyBody) : Reordered body body
  | record {fields others : List (String × ElementCopy)} (h : fields.Perm others) :
      Reordered (.record fields) (.record others)

namespace CopyBody.Reordered

variable {body other : CopyBody} (h : body.Reordered other)
include h

theorem elements : body.elements.Perm other.elements := by
  cases h with
  | refl => exact .refl _
  | record h => exact h.map Prod.snd

theorem helpers : body.helpers.Perm other.helpers := h.elements.filterMap _

theorem capabilities : body.capabilities.Perm other.capabilities := h.elements.filterMap _

end CopyBody.Reordered

/-- Two zero predicates differ at most in the order of fields. -/
inductive ZeroBody.Reordered : ZeroBody → ZeroBody → Prop
  | refl (body : ZeroBody) : Reordered body body
  | allFields {tests others : List (String × ZeroTest)} (h : tests.Perm others) :
      Reordered (.allFields tests) (.allFields others)

theorem ZeroBody.Reordered.delegates {body other : ZeroBody} (h : body.Reordered other) :
    body.delegates.Perm other.delegates := by
  cases h with
  | refl => exact .refl _
  | allFields h => exact h.filterMap _

/-- A walk along fields in another order finds the same results in another order. -/
theorem exists_mapM_of_reordered {α : Type} {f g : String → Ref → Except GenerationError α}
    {fields others : List (String × Ref)} (h : (Ref.inline fields).Reordered (.inline others))
    (hfg : ∀ name ref found, (name, ref) ∈ fields → ref.Reordered found →
      g name found = f name ref) {results : List (String × α)}
    (hr : fields.mapM (fun field => do return (field.1, ← f field.1 field.2)) = .ok results) :
    ∃ found, others.mapM (fun field => do return (field.1, ← g field.1 field.2)) = .ok found ∧
      results.Perm found := by
  have hresults := mapM_eq_ok_iff.mp hr
  -- a field has the same result in either table
  have hsame {name : String} {ref found : Ref} {result : String × α} (hf : (name, ref) ∈ fields)
      (hs : ref.Reordered found)
      (hr : (do return (name, ← f name ref) : Except GenerationError (String × α)) = .ok result) :
      (do return (name, ← g name found) : Except GenerationError (String × α)) = .ok result := by
    rwa [hfg name ref found hf hs]
  have hothers : ∀ field ∈ others, ∃ result,
      (do return (field.1, ← g field.1 field.2) : Except GenerationError (String × α)) =
        .ok result := by
    rintro ⟨name, found⟩ ho
    obtain ⟨ref, hf, hs⟩ := h.symm.exists_field ho
    obtain ⟨result, _, hresult⟩ := exists_of_mem_left hresults hf
    exact ⟨result, hsame hf hs.symm hresult⟩
  obtain ⟨found, hfound⟩ := exists_forall₂ hothers
  have hnames : results.map Prod.fst = Fields.names fields :=
    names_eq_of_forall₂ (R := fun _ _ => True) (hresults.imp fun field result hr => by
      obtain ⟨_, _, hr⟩ := bind_eq_ok_iff.mp hr
      exact ⟨(congrArg Prod.fst (pure_eq_ok_iff.mp hr)).symm, trivial⟩)
  cases h with
  | inline hd hn hs =>
    have hdistinct : results.Nodup := List.Nodup.of_map Prod.fst (hnames ▸ hd)
    refine ⟨found, mapM_eq_ok_iff.mpr hfound,
      (List.subperm_of_subset hdistinct fun result hm => ?_).perm_of_length_le ?_⟩
    · obtain ⟨⟨name, ref⟩, hf, hresult⟩ := exists_of_mem_right hresults hm
      obtain ⟨ref', ho, hs⟩ := Ref.Reordered.exists_field (.inline hd hn hs) hf
      obtain ⟨result', hm', hresult'⟩ := exists_of_mem_left hfound ho
      cases (hsame hf hs hresult).symm.trans hresult'
      exact hm'
    · have hlen := hn.length_eq
      simp only [Fields.names, List.length_map] at hlen
      rw [← hfound.length_eq, ← hresults.length_eq, hlen]

namespace Table.Reordered

variable {table other : Table} {language : Code.Language} {name owner : String} {ref found : Ref}
  {shape shape' : Shape} (hv : table.validate language = .ok ())
  (hv' : other.validate language = .ok ()) (h : table.Reordered other)
include hv hv' h

theorem isValue_eq (hr : ref.Reordered found) (hn : ∀ name, ref.Uses name → name ∈ table.names)
    (context : String) : other.isValue found context = table.isValue ref context :=
  isValue_congr hv hv' hn (fun name hu => h.names ▸ hn name (hr.symm.uses hu))
    ⟨h.symm.owningRef hr.symm, h.owningRef hr⟩ context

theorem isValueName_eq (hn : name ∈ table.names) (context : String) :
    other.isValueName name context = table.isValueName name context :=
  h.isValue_eq hv hv' (.named name) (fun _ hu => uses_named_iff.mp hu ▸ hn) context

/-! ## Copies -/

theorem elementCopy_eq (hr : ref.Reordered found)
    (hn : ∀ name, ref.Uses name → name ∈ table.names) (owner slot : String) :
    other.elementCopy owner slot found = table.elementCopy owner slot ref := by
  unfold elementCopy
  dsimp only
  rw [h.isValue_eq hv hv' hr hn]
  cases hr with
  | inline => rfl
  | named target =>
    obtain ⟨canonical, shape, hl⟩ :=
      exists_resolve_of_validate hv (hn target .named) (slotContext slot owner)
    obtain ⟨shape', hl', hs⟩ := h.resolve hl
    simp only [hl, hl', lifted, ok_bind, hs.isCapability_eq, hs.isBuiltin_eq]

theorem spelledCopy (hg : table.get? owner = some (.type shape)) (hs : shape.Reordered shape')
    {body : CopyBody} (hb : table.spelledCopy owner shape = .ok body) :
    ∃ found, other.spelledCopy owner shape' = .ok found ∧ body.Reordered found := by
  have hn := @mem_names_of_slot table language owner shape hv hg
  cases hs with
  | builtin => exact ⟨body, hb, .refl body⟩
  | fixed length hr | dynamic hr =>
    refine ⟨body, ?_, .refl body⟩
    rw [Table.spelledCopy, h.elementCopy_eq hv hv' hr (hn (List.mem_singleton_self _))]
    exact hb
  | record hr =>
    obtain ⟨copies, hc, hb⟩ := bind_eq_ok_iff.mp hb
    cases pure_eq_ok_iff.mp hb
    obtain ⟨found, hf, hp⟩ := exists_mapM_of_reordered hr
      (fun field ref ref' hf hs => h.elementCopy_eq hv hv' hs (hn hf) owner field) hc
    exact ⟨.record found, bind_eq_ok_iff.mpr ⟨found, hf, rfl⟩, .record hp⟩

/-- A type with a copy body has one in the other table too, with the fields in its order. -/
theorem copyBody {body : CopyBody} (hb : table.copyBody name = .ok body) :
    ∃ found, other.copyBody name = .ok found ∧ body.Reordered found := by
  obtain ⟨⟨owner, shape⟩, hr, hb⟩ := bind_eq_ok_iff.mp hb
  have hr := lifted_eq_ok_iff.mp hr
  have hg := get?_of_resolve hr
  obtain ⟨shape', hr', hs⟩ := h.resolve hr
  simp only [Table.copyBody, hr', lifted, ok_bind, hs.isCapability_eq, hs.isBuiltin_eq,
    h.isValueName_eq hv hv' (mem_names_of_get? hg)]
  dsimp only at hb
  split at hb
  · exact absurd hb throw_ne_ok
  · rename_i hcap
    rw [if_neg hcap]
    split at hb
    · rename_i hbuiltin
      exact ⟨body, by rw [if_pos hbuiltin, hb], .refl body⟩
    · rename_i hbuiltin
      rw [if_neg hbuiltin]
      obtain ⟨value, hvalue, hb⟩ := bind_eq_ok_iff.mp hb
      rw [hvalue, ok_bind]
      cases value with
      | true => exact ⟨body, hb, .refl body⟩
      | false => exact h.spelledCopy hv hv' hg hs hb

/-! ## Zero predicates -/

theorem zeroTest_eq (hr : ref.Reordered found)
    (hn : ∀ name, ref.Uses name → name ∈ table.names) (owner context : String) :
    other.zeroTest owner context found = table.zeroTest owner context ref := by
  have hvalue := h.isValue_eq hv hv' hr hn context
  cases hr with
  | inline => rw [zeroTest, zeroTest, hvalue]
  | named target =>
    obtain ⟨canonical, shape, hl⟩ := exists_resolve_of_validate hv (hn target .named) context
    obtain ⟨shape', hl', hs⟩ := h.resolve hl
    rw [zeroTest, zeroTest, hl, hl']
    simp only [lifted, ok_bind, hs.zeroLiteral?_eq,
      h.isValueName_eq hv hv' (mem_names_of_get? (get?_of_resolve hl))]
    cases hs <;> rfl

theorem spelledZero (hg : table.get? owner = some (.type shape)) (hs : shape.Reordered shape')
    {body : Option ZeroBody} (hb : table.spelledZero owner shape = .ok body) :
    ∃ found, other.spelledZero owner shape' = .ok found ∧
      Option.Rel ZeroBody.Reordered body found := by
  have hn := @mem_names_of_slot table language owner shape hv hg
  cases hs with
  | builtin => exact absurd hb throw_ne_ok
  | dynamic =>
    cases pure_eq_ok_iff.mp hb
    exact ⟨none, rfl, .none⟩
  | fixed length hr =>
    obtain ⟨test, ht, hb⟩ := bind_eq_ok_iff.mp hb
    cases pure_eq_ok_iff.mp hb
    rw [← h.zeroTest_eq hv hv' hr (hn (List.mem_singleton_self _))] at ht
    exact ⟨_, bind_eq_ok_iff.mpr ⟨test, ht, rfl⟩, .some (.refl _)⟩
  | record hr =>
    obtain ⟨tests, ht, hb⟩ := bind_eq_ok_iff.mp hb
    cases pure_eq_ok_iff.mp hb
    obtain ⟨found, hf, hp⟩ := exists_mapM_of_reordered hr
      (fun field ref ref' hf hs =>
        h.zeroTest_eq hv hv' hs (hn hf) owner (fieldContext field owner)) ht
    exact ⟨some (.allFields found), bind_eq_ok_iff.mpr ⟨found, hf, rfl⟩, .some (.allFields hp)⟩

/-- A type with a zero predicate has one in the other table too, with the fields in its order. -/
theorem zeroBody {body : Option ZeroBody} (hb : table.zeroBody name = .ok body) :
    ∃ found, other.zeroBody name = .ok found ∧ Option.Rel ZeroBody.Reordered body found := by
  obtain ⟨type, hl, hb⟩ := bind_eq_ok_iff.mp hb
  have hg := get?_of_lookup (lifted_eq_ok_iff.mp hl)
  obtain ⟨type', hg', hr⟩ := h.get? hg
  rw [Table.zeroBody, lookup, hg', lifted, ok_bind]
  cases hr with
  | aliasOf =>
    cases pure_eq_ok_iff.mp hb
    exact ⟨none, rfl, .none⟩
  | @type shape shape' hs =>
    dsimp only at hb ⊢
    rw [hs.hasPredicate_eq, h.isValueName_eq hv hv' (mem_names_of_get? hg)]
    split at hb
    · rename_i hp
      rw [if_pos hp]
      obtain ⟨value, hvalue, hb⟩ := bind_eq_ok_iff.mp hb
      rw [hvalue, ok_bind]
      cases value with
      | true =>
        cases pure_eq_ok_iff.mp hb
        exact ⟨_, rfl, .some (.refl _)⟩
      | false => exact h.spelledZero hv hv' hg hs hb
    · rename_i hp
      rw [if_neg hp]
      exact h.spelledZero hv hv' hg hs hb

end Table.Reordered

end CopySynth
