import CopySynth.Proofs.Requests
import CopySynth.Proofs.UnnamedStorage
import CopySynth.Proofs.ZeroClosure

/-!
# Tables that differ in the order of fields

`Reordered` says without a search what `same` decides: two definitions differ at most in the order
of record fields, at any depth. Tables with such definitions name the same types, and the types lead
to each other, hold each other and own storage alike. So the body of a type differs at most in the
order of its fields.
-/

namespace CopySynth

/-- Two references differ at most in the order of fields. -/
inductive Ref.Reordered : Ref → Ref → Prop
  | named (name : String) : Reordered (.named name) (.named name)
  | inline {fields others : List (String × Ref)} (hd : (Fields.names fields).Nodup)
      (hn : (Fields.names fields).Perm (Fields.names others))
      (hs : ∀ name ref other, (name, ref) ∈ fields → (name, other) ∈ others →
        Reordered ref other) : Reordered (.inline fields) (.inline others)

namespace Ref

variable {ref other : Ref} {fields others : List (String × Ref)}

theorem Reordered.symm (h : ref.Reordered other) : other.Reordered ref := by
  induction h with
  | named name => exact .named name
  | inline hd hn _ ih =>
    exact .inline (hn.nodup_iff.mp hd) hn.symm fun name ref other hr ho => ih name other ref ho hr

theorem Reordered.exists_field (h : (Ref.inline fields).Reordered (.inline others)) {name : String}
    (hf : (name, ref) ∈ fields) : ∃ other, (name, other) ∈ others ∧ ref.Reordered other := by
  cases h with
  | inline _ hn hs =>
    obtain ⟨⟨name, other⟩, ho, rfl⟩ :=
      List.mem_map.mp (hn.mem_iff.mp (List.mem_map.mpr ⟨_, hf, rfl⟩))
    exact ⟨other, ho, hs name ref other hf ho⟩

theorem Reordered.uses (h : ref.Reordered other) {name : String} (hu : ref.Uses name) :
    other.Uses name := by
  induction hu generalizing other with
  | named =>
    cases h
    exact .named
  | field hf _ ih =>
    cases h with
    | inline hd hn hs =>
      obtain ⟨other, ho, hr⟩ := Reordered.exists_field (.inline hd hn hs) hf
      exact .field ho (ih hr)

mutual
/-- What the comparison accepts differs at most in the order of fields. -/
theorem reordered_of_same : (ref other : Ref) → ref.Distinct → other.Distinct →
    ref.same other = true → ref.Reordered other
  | .named name, .named other, _, _, h => by
    cases eq_of_beq h
    exact .named name
  | .inline fields, .inline others, hd, ho, h => by
    obtain ⟨hlen, hsame⟩ : fields.length = others.length ∧ sameFields fields others = true := by
      simpa [same] using h
    have hfound := exists_of_sameFields fields others hd.2 ho.2 hsame
    have hsub : Fields.names fields ⊆ Fields.names others := by
      intro name hn
      obtain ⟨⟨name, ref⟩, hf, rfl⟩ := List.mem_map.mp hn
      obtain ⟨other, hm, _⟩ := hfound name ref hf
      exact List.mem_map.mpr ⟨_, hm, rfl⟩
    refine .inline hd.1 ((List.subperm_of_subset hd.1 hsub).perm_of_length_le ?_) ?_
    · simp [Fields.names, hlen]
    · intro name ref other hf hm
      obtain ⟨found, hm', hr⟩ := hfound name ref hf
      have hfound := Fields.get?_of_mem ho.1 hm'
      rw [Fields.get?_of_mem ho.1 hm] at hfound
      cases hfound
      exact hr
  | .named _, .inline _, _, _, h => by cases h
  | .inline _, .named _, _, _, h => by cases h

theorem exists_of_sameFields : (fields others : List (String × Ref)) → FieldsDistinct fields →
    FieldsDistinct others → sameFields fields others = true →
    ∀ name ref, (name, ref) ∈ fields → ∃ other, (name, other) ∈ others ∧ ref.Reordered other
  | [], _, _, _, _, _, _, hf => absurd hf List.not_mem_nil
  | (first, ref) :: rest, others, hd, ho, h, name, field, hf => by
    rw [sameFields, Bool.and_eq_true] at h
    rcases List.mem_cons.mp hf with hfirst | hf
    · obtain ⟨rfl, rfl⟩ := Prod.mk.inj hfirst
      cases hg : Fields.get? others name with
      | none => simp [hg] at h
      | some other =>
        rw [hg] at h
        have hm := Fields.mem_of_get? hg
        have hdistinct := (fieldsDistinct_iff others).mp ho _ hm
        exact ⟨other, hm, reordered_of_same field other hd.1 hdistinct h.1⟩
    · exact exists_of_sameFields rest others hd.2 ho h.2 name field hf
end

end Ref

/-- Two types differ at most in the order of fields. -/
inductive Shape.Reordered : Shape → Shape → Prop
  | builtin (type : Builtin) : Reordered (.builtin type) (.builtin type)
  | fixed (length : Nat) {element other} (h : element.Reordered other) :
      Reordered (.fixed length element) (.fixed length other)
  | dynamic {element other} (h : element.Reordered other) :
      Reordered (.dynamic element) (.dynamic other)
  | record {fields others} (h : (Ref.inline fields).Reordered (.inline others)) :
      Reordered (.record fields) (.record others)

namespace Shape.Reordered

variable {shape other : Shape}

theorem symm (h : shape.Reordered other) : other.Reordered shape := by
  cases h with
  | builtin type => exact .builtin type
  | fixed length h => exact .fixed length h.symm
  | dynamic h => exact .dynamic h.symm
  | record h => exact .record h.symm

theorem isBuiltin_eq (h : shape.Reordered other) : other.isBuiltin = shape.isBuiltin := by
  cases h <;> rfl

theorem isCapability_eq (h : shape.Reordered other) : other.isCapability = shape.isCapability := by
  cases h <;> rfl

theorem zeroLiteral?_eq (h : shape.Reordered other) : other.zeroLiteral? = shape.zeroLiteral? := by
  cases h <;> rfl

theorem hasPredicate_eq (h : shape.Reordered other) : other.hasPredicate = shape.hasPredicate := by
  cases h <;> rfl

end Shape.Reordered

theorem Shape.reordered_of_same {shape other : Shape} (hd : shape.Distinct) (ho : other.Distinct)
    (h : shape.same other = true) : shape.Reordered other := by
  cases shape with
  | builtin type =>
    cases other with
    | builtin =>
      cases eq_of_beq h
      exact .builtin type
    | fixed | dynamic | record => cases h
  | fixed length element =>
    cases other with
    | fixed =>
      obtain ⟨hlen, hs⟩ := Bool.and_eq_true_iff.mp h
      cases eq_of_beq hlen
      exact .fixed length (Ref.reordered_of_same _ _ hd ho hs)
    | builtin | dynamic | record => cases h
  | dynamic element =>
    cases other with
    | dynamic => exact .dynamic (Ref.reordered_of_same _ _ hd ho h)
    | builtin | fixed | record => cases h
  | record fields =>
    cases other with
    | record others =>
      exact .record (Ref.reordered_of_same (.inline fields) (.inline others) hd ho h)
    | builtin | fixed | dynamic => cases h

/-- Two definitions differ at most in the order of fields. -/
inductive Definition.Reordered : Definition → Definition → Prop
  | aliasOf (target : String) : Reordered (.aliasOf target) (.aliasOf target)
  | type {shape other} (h : shape.Reordered other) : Reordered (.type shape) (.type other)

namespace Definition

variable {type other : Definition}

theorem Reordered.symm (h : type.Reordered other) : other.Reordered type := by
  cases h with
  | aliasOf target => exact .aliasOf target
  | type h => exact .type h.symm

theorem Reordered.ownsStorage_eq (h : type.Reordered other) :
    other.ownsStorage = type.ownsStorage := by
  cases h with
  | aliasOf => rfl
  | type h => cases h <;> rfl

theorem Reordered.holds (h : type.Reordered other) {name : String} (hh : type.Holds name) :
    other.Holds name := by
  cases hh with
  | target =>
    cases h
    exact .target
  | fixed hu =>
    cases h with
    | type h =>
      cases h with
      | fixed _ h => exact .fixed (h.uses hu)
  | field hf hu =>
    cases h with
    | type h =>
      cases h with
      | record h =>
        obtain ⟨ref, ho, hr⟩ := h.exists_field hf
        exact .field ho (hr.uses hu)

theorem reordered_of_same (hd : type.Distinct) (ho : other.Distinct)
    (h : type.same other = true) : type.Reordered other := by
  cases type with
  | aliasOf target =>
    cases other with
    | aliasOf =>
      cases eq_of_beq h
      exact .aliasOf target
    | type => cases h
  | type shape =>
    cases other with
    | aliasOf => cases h
    | type => exact .type (Shape.reordered_of_same hd ho h)

end Definition

namespace Table

/-- Two tables name the same types in the same order, and each differs at most in the order of
fields. -/
structure Reordered (table other : Table) : Prop where
  names : table.names = other.names
  types : ∀ name type found, table.get? name = some type → other.get? name = some found →
    type.Reordered found

variable {table other : Table}

/-- What the comparison accepts entry by entry differs at most in the order of fields. -/
theorem reordered_of_same
    (h : List.Forall₂ (fun entry found => found.1 = entry.1 ∧ entry.2.same found.2 = true)
      table.entries other.entries) : table.Reordered other where
  names := (names_eq_of_forall₂ h).symm
  types name type found hg ho := by
    have hm := get?_eq_some_iff.mp hg
    have hm' := get?_eq_some_iff.mp ho
    exact Definition.reordered_of_same (table.distinct_fields _ hm) (other.distinct_fields _ hm')
      (rel_of_mem_named h table.distinct_names hm hm' rfl)

namespace Reordered

variable {name context : String} {shape : Shape}

theorem symm (h : table.Reordered other) : other.Reordered table :=
  ⟨h.names.symm, fun name type found hg ho => (h.types name found type ho hg).symm⟩

variable (h : table.Reordered other)
include h

theorem size_eq : other.size = table.size := by
  rw [← names_length, ← names_length, h.names]

theorem get? {type : Definition} (hg : table.get? name = some type) :
    ∃ found, other.get? name = some found ∧ type.Reordered found := by
  have hn : name ∈ other.names := h.names ▸ mem_names_of_get? hg
  obtain ⟨found, ho⟩ := Option.isSome_iff_exists.mp ((get?_isSome_iff other name).mpr hn)
  exact ⟨found, ho, h.types name type found hg ho⟩

theorem get?_type (hg : table.get? name = some (.type shape)) :
    ∃ found, other.get? name = some (.type found) ∧ shape.Reordered found := by
  obtain ⟨_, ho, hr⟩ := h.get? hg
  cases hr with
  | type hr => exact ⟨_, ho, hr⟩

theorem get?_aliasOf {target : String} (hg : table.get? name = some (.aliasOf target)) :
    other.get? name = some (.aliasOf target) := by
  obtain ⟨_, ho, hr⟩ := h.get? hg
  cases hr
  exact ho

/-- Names lead to the same canonical names. -/
theorem resolveFrom {steps : Nat} {passed : List String} {canonical : String}
    (hr : table.resolveFrom context steps passed name = .ok (canonical, shape)) :
    ∃ found, other.resolveFrom context steps passed name = .ok (canonical, found) ∧
      shape.Reordered found := by
  induction steps generalizing passed name with
  | zero => cases hr
  | succ steps ih =>
    rw [Table.resolveFrom] at hr
    split at hr
    · cases hr
    · rename_i target hg
      split at hr
      · cases hr
      · rename_i hnew
        obtain ⟨found, ho, hs⟩ := ih hr
        exact ⟨found, by simp [Table.resolveFrom, h.get?_aliasOf hg, hnew, ho], hs⟩
    · rename_i hg
      cases hr
      obtain ⟨found, ho, hs⟩ := h.get?_type hg
      exact ⟨found, by simp [Table.resolveFrom, ho], hs⟩

theorem resolve {canonical : String} (hr : table.resolve name context = .ok (canonical, shape)) :
    ∃ found, other.resolve name context = .ok (canonical, found) ∧ shape.Reordered found := by
  rw [Table.resolve, h.size_eq]
  exact h.resolveFrom hr

theorem namesBuiltin_eq (name : String) : other.namesBuiltin name = table.namesBuiltin name := by
  cases hg : table.get? name with
  | none =>
    have ho : other.get? name = none := by
      rw [← Option.not_isSome_iff_eq_none, get?_isSome_iff, ← h.names, ← get?_isSome_iff, hg]
      decide
    rw [namesBuiltin, namesBuiltin, hg, ho]
  | some type =>
    obtain ⟨found, ho, hr⟩ := h.get? hg
    rw [namesBuiltin, namesBuiltin, hg, ho]
    cases hr with
    | aliasOf => rfl
    | type hr => exact hr.isBuiltin_eq

theorem seeds_eq : Run.seeds other = Run.seeds table := by
  simp only [Run.seeds, h.names, h.namesBuiltin_eq]

theorem rootName? {root : String} (hr : table.rootName? root = some name) :
    other.rootName? root = some name := by
  unfold Table.rootName? at hr
  split at hr
  · rename_i canonical shape hfound
    obtain ⟨found, ho, hs⟩ := h.resolve hfound
    rw [Table.rootName?, ho]
    rwa [← hs.isBuiltin_eq] at hr
  · cases hr

theorem rootNames_eq (roots : List String) : other.rootNames roots = table.rootNames roots := by
  have hroot (root : String) : other.rootName? root = table.rootName? root := by
    cases hr : table.rootName? root with
    | some name => exact h.rootName? hr
    | none =>
      cases ho : other.rootName? root with
      | none => rfl
      | some name => exact absurd (h.symm.rootName? ho) (by simp [hr])
  rw [rootNames, rootNames, funext hroot]

/-! ## Storage -/

theorem holds {part : String} (hh : table.Holds name part) : other.Holds name part := by
  obtain ⟨type, hg, hh⟩ := hh
  obtain ⟨found, ho, hr⟩ := h.get? hg
  exact ⟨found, ho, hr.holds hh⟩

theorem owning (ho : table.Owning name) : other.Owning name := by
  induction ho with
  | owner hg hs =>
    obtain ⟨found, hg', hr⟩ := h.get? hg
    exact .owner hg' (by rw [hr.ownsStorage_eq, hs])
  | part hh _ ih => exact .part (h.holds hh) ih

theorem owningRef {ref found : Ref} (hr : ref.Reordered found) (ho : table.OwningRef ref) :
    other.OwningRef found := by
  obtain ⟨name, hu, ho⟩ := ho
  exact ⟨name, hr.uses hu, h.owning ho⟩

end Reordered

end Table

end CopySynth
