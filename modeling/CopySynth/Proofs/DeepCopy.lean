import CopySynth.Evaluation.DeepCopy
import CopySynth.Proofs.CopyClosure
import CopySynth.Proofs.Overrides
import CopySynth.Proofs.Shapes

/-!
# Copies are deep

Applying the copy of a type to a finite value of its shape makes a new value with the same content.
Value types have no cells, all other constituents are overridden, and every helper that is called
was made.
-/

namespace CopySynth

/-- After a step that runs, the next one runs from where it ended. -/
theorem run_bind_of_ok {α β : Type} {first : Alloc α} {second : α → Alloc β} {before mid : Heap}
    {a : α} (h : first.run before = .ok (a, mid)) :
    (first >>= second).run before = (second a).run mid := by
  rw [StateT.run_bind, h]
  rfl

/-- Two steps in a row run when the first does and the second does from where it ended. -/
theorem run_bind_eq_ok {α β : Type} {first : Alloc α} {second : α → Alloc β}
    {before mid after : Heap} {a : α} {b : β} (h : first.run before = .ok (a, mid))
    (h' : (second a).run mid = .ok (b, after)) :
    (first >>= second).run before = .ok (b, after) :=
  (run_bind_of_ok h).trans h'

/-- A step that, from any heap grown out of a base, makes a new value with a content. -/
def Makes (base : Heap) (content : Content) (step : Alloc Value) : Prop :=
  ∀ before, base.Grows before →
    ∃ value after, step.run before = .ok (value, after) ∧ before.Fresh content value after

variable {base : Heap}

/-- Steps along a list make new values. -/
theorem mapM_makes {step : Value → Alloc Value} {items : List Value} {contents : List Content}
    (h : List.Forall₂ (fun item content => Makes base content (step item)) items contents)
    {before : Heap} (hb : base.Grows before) :
    ∃ values after, (items.mapM step).run before = .ok (values, after) ∧
      before.AllFresh contents values after := by
  induction h generalizing before with
  | nil => exact ⟨[], before, rfl, .nil before⟩
  | @cons item content items contents hstep _ ih =>
    obtain ⟨value, mid, hrun, hfresh⟩ := hstep before hb
    obtain ⟨values, after, hruns, hall⟩ := ih (hb.trans hfresh.grows)
    refine ⟨value :: values, after, ?_, .cons hfresh hall⟩
    rw [List.mapM_cons]
    exact run_bind_eq_ok hrun (run_bind_eq_ok hruns rfl)

/-- Steps that override the fields of a record one by one make new values for them. -/
theorem foldlM_makes (step : ElementCopy → Value → Alloc Value) (name : String)
    (fields copy : Fields Value) {overrides : List (String × ElementCopy)} {contents : List Content}
    (h : List.Forall₂ (fun field content => ∃ part, fields.get? field.1 = some part ∧
      Makes base content (step field.2 part)) overrides contents)
    {before : Heap} (hb : base.Grows before) :
    ∃ results after, (overrides.foldlM (fun (copy : Fields Value) (field, element) => do
        match Fields.get? fields field with
        | none => throw (GenerationError.evaluation (.missingField name field))
        | some part => return copy.put field (← step element part)) copy).run before =
          .ok (copy.override results, after) ∧
      Fields.names results = overrides.map Prod.fst ∧
      before.AllFresh contents (results.map Prod.snd) after := by
  induction h generalizing before copy with
  | nil => exact ⟨[], before, rfl, rfl, .nil before⟩
  | @cons field content overrides contents hfield _ ih =>
    obtain ⟨part, hpart, hstep⟩ := hfield
    obtain ⟨value, mid, hrun, hfresh⟩ := hstep before hb
    obtain ⟨results, after, hruns, hnames, hall⟩ :=
      ih (copy.put field.1 value) (hb.trans hfresh.grows)
    refine ⟨(field.1, value) :: results, after, ?_, ?_, .cons hfresh hall⟩
    · rw [List.foldlM_cons]
      refine run_bind_eq_ok ?_ hruns
      simp only [hpart]
      exact run_bind_eq_ok hrun rfl
    · rw [Fields.names_cons, hnames]
      rfl

namespace Synthesis

/-- The concrete types behind interfaces that can be copied: those with a copy, and value types. -/
def Copies (synthesis : Synthesis) (table : Table) (concrete : String) : Prop :=
  (synthesis.copyBody? concrete).isSome ∨
    table.isValueName concrete "capability variant" = .ok true

/-- A way of duplicating that suits a value. -/
inductive Suits (synthesis : Synthesis) (table : Table) (heap : Heap) : ElementCopy → Value → Prop
  | assign {ref value} (hs : table.Shaped heap (synthesis.Copies table) ref value)
      (hp : table.PlainRef ref) : Suits synthesis table heap .assign value
  | external {name value} : Suits synthesis table heap (.external name) value
  | unset {name} : Suits synthesis table heap (.capability name) .unset
  | slot {name concrete value} (hc : synthesis.Copies table concrete)
      (hs : table.Shaped heap (synthesis.Copies table) (.named concrete) value) :
      Suits synthesis table heap (.capability name) (.slot concrete value)
  | helper {type value} (hb : (synthesis.copyBody? type).isSome)
      (hs : table.Shaped heap (synthesis.Copies table) (.named type) value) :
      Suits synthesis table heap (.helper type) value

variable {synthesis : Synthesis} {table : Table} {language : Code.Language}

/-- A part of a value, and a step that duplicates it in every way that suits it. -/
structure Duplicates (synthesis : Synthesis) (table : Table) (heap : Heap)
    (step : ElementCopy → Value → Alloc Value) (part : Value) (content : Content) : Prop where
  stores : heap.Stores part content
  makes : ∀ how, synthesis.Suits table heap how part → Makes heap content (step how part)

/-- How a constituent is duplicated suits the values of its type. -/
theorem suits_of_elementCopy {owner slot : String} {ref : Ref} {how : ElementCopy} {value : Value}
    (h : table.elementCopy owner slot ref = .ok how)
    (hc : ∀ helper, how.helper? = some helper → (synthesis.copyBody? helper).isSome)
    (hs : table.Shaped base (synthesis.Copies table) ref value) :
    synthesis.Suits table base how value := by
  rcases Table.elementCopy_cases h with ⟨hv, rfl⟩ | ⟨target, canonical, shape, rfl, hl, _, rfl⟩
  · exact .assign hs (Table.plainRef_of_isValue hv)
  · have hs := hs.canonical hl
    by_cases hcap : shape.isCapability = true
    · rw [if_pos hcap]
      cases shape with
      | builtin builtin =>
        have hm : builtin.marker = .capability := by simpa [Shape.isCapability] using hcap
        rcases hs.definition hl.get? with ⟨_, _, hvalue⟩ | ⟨_, _, hexternal⟩ | ⟨_, hslot⟩
        · simp [hm] at hvalue
        · simp [hm] at hexternal
        rcases hslot with rfl | ⟨concrete, inner, rfl, ha, hinner⟩
        · exact .unset
        · exact .slot ha hinner
      | fixed | dynamic | record => cases hcap
    · rw [if_neg hcap] at hc ⊢
      by_cases hb : shape.isBuiltin = true
      · rw [if_pos hb]
        exact .external
      · rw [if_neg hb] at hc ⊢
        exact .helper (hc canonical rfl) hs

/-- The elements of a sequence are duplicated as the element type asks. -/
theorem steps_make {step : ElementCopy → Value → Alloc Value} {owner slot : String} {element : Ref}
    {how : ElementCopy} {items : List Value} {contents : List Content}
    (h : table.elementCopy owner slot element = .ok how)
    (hc : ∀ helper, how.helper? = some helper → (synthesis.copyBody? helper).isSome)
    (hs : ∀ item ∈ items, table.Shaped base (synthesis.Copies table) element item)
    (hall : List.Forall₂ (synthesis.Duplicates table base step) items contents) :
    List.Forall₂ (fun item content => Makes base content (step how item)) items contents :=
  forall₂_imp_of_mem hall fun item hi _ _ hm =>
    hm.makes how (suits_of_elementCopy h hc (hs item hi))

/-- The copy of a concrete type is its helper, or for want of one a plain duplicate. -/
theorem variantCopy_eq_ok_iff {concrete : String} {how : ElementCopy} :
    synthesis.variantCopy table concrete = .ok how ↔
      ((synthesis.copyBody? concrete).isSome ∧ how = .helper concrete) ∨
      (¬ (synthesis.copyBody? concrete).isSome ∧
        table.isValueName concrete "capability variant" = .ok true ∧ how = .assign) := by
  unfold variantCopy
  by_cases hb : (synthesis.copyBody? concrete).isSome
  · rw [if_pos hb, pure_eq_ok_iff]
    simp [hb, eq_comm]
  · rw [if_neg hb, bind_eq_ok_iff]
    constructor
    · rintro ⟨value, hvalue, hc⟩
      cases value with
      | true => exact .inr ⟨hb, hvalue, (pure_eq_ok_iff.mp hc).symm⟩
      | false => exact absurd hc throw_ne_ok
    · rintro (⟨hsome, _⟩ | ⟨_, hvalue, rfl⟩)
      · exact absurd hsome hb
      · exact ⟨true, hvalue, rfl⟩

theorem variantCopy_of_copyBody? {concrete : String} {body : CopyBody}
    (hb : synthesis.copyBody? concrete = some body) :
    synthesis.variantCopy table concrete = .ok (.helper concrete) :=
  variantCopy_eq_ok_iff.mpr (.inl ⟨Option.isSome_iff_exists.mpr ⟨body, hb⟩, rfl⟩)

/-- The copy of an admitted concrete type suits its values. -/
theorem variantCopy_suits {concrete : String} {value : Value} (hc : synthesis.Copies table concrete)
    (hs : table.Shaped base (synthesis.Copies table) (.named concrete) value) :
    ∃ how, synthesis.variantCopy table concrete = .ok how ∧
      synthesis.Suits table base how value := by
  by_cases hb : (synthesis.copyBody? concrete).isSome
  · exact ⟨.helper concrete, variantCopy_eq_ok_iff.mpr (.inl ⟨hb, rfl⟩), .helper hb hs⟩
  · have hv := hc.resolve_left hb
    exact ⟨.assign, variantCopy_eq_ok_iff.mpr (.inr ⟨hb, hv, rfl⟩),
      .assign hs (Table.plainRef_of_isValue hv)⟩

/-- A value without cells is its own copy. -/
theorem makes_of_plain {value : Value} {content : Content} (hc : base.Stores value content)
    (hp : ∀ other depth, Heap.storageWithin other depth value = []) :
    Makes base content (pure value) := by
  intro before hb
  have hstorage : ∀ other : Heap, other.storage value = [] := fun other => hp other _
  exact ⟨value, before, rfl, .refl before, hc.of_storage_eq_nil (hstorage base),
    by simp [hstorage], by simp [hstorage]⟩

theorem makes_detach {value : Value} {content : Content} (hc : base.Stores value content)
    (ha : ∀ a ∈ base.storage value, a < base.size) : Makes base content (detach value) := by
  intro before hb
  have hread : before.content? value = some content :=
    Heap.content?_eq_some_iff.mpr (hb.stores hc ha).1
  have hget : (get : Alloc Heap).run before = .ok (before, before) := rfl
  refine ⟨_, _, run_bind_eq_ok hget ?_, Heap.fresh_build content before⟩
  rw [hread]
  rfl

/-- What a body makes of a value, given how its constituents are duplicated. -/
def applyBody (step : ElementCopy → Value → Alloc Value) (type : String) :
    CopyBody → Value → Alloc Value
  | .trivial, value | .shallow, value => return value
  | .dynamic element, .seq address => do
    let items := (← get).read address
    allocSeq (← items.mapM (step element))
  | .fixed _ element, .array items => do return .array (← items.mapM (step element))
  | .record tests, .record fields => do
    let copy ← (CopyBody.record tests).overrides.foldlM
      (fun (copy : Fields Value) (field, element) => do
        match Fields.get? fields field with
        | none => throw (GenerationError.evaluation (.missingField type field))
        | some part => return copy.put field (← step element part)) fields
    return .record copy
  | _, _ => throw (GenerationError.evaluation (.shapeMismatch type))

/-- The body that the helper of a name applies, with the type that the name leads to. -/
def helperBody (synthesis : Synthesis) (table : Table) (type : String) :
    Except GenerationError (String × CopyBody) := do
  let (name, _) ← lifted (table.resolve type "evaluation")
  match synthesis.copyBody? name with
  | none => throw (.evaluation (.noCopy name))
  | some body => return (name, body)

theorem helperBody_eq_ok_iff {type name : String} {body : CopyBody} :
    synthesis.helperBody table type = .ok (name, body) ↔
      ∃ shape, table.resolve type "evaluation" = .ok (name, shape) ∧
        synthesis.copyBody? name = some body := by
  rw [helperBody, bind_eq_ok_iff]
  constructor
  · rintro ⟨⟨found, shape⟩, hr, h⟩
    dsimp only at h
    split at h
    · exact absurd h throw_ne_ok
    · rename_i hb
      cases pure_eq_ok_iff.mp h
      exact ⟨shape, lifted_eq_ok_iff.mp hr, hb⟩
  · rintro ⟨shape, hr, hb⟩
    refine ⟨(name, shape), lifted_eq_ok_iff.mpr hr, ?_⟩
    dsimp only
    rw [hb]
    rfl

/-- A type with a copy has it under its own name. -/
theorem helperBody_of_copyBody? (hclosed : table.CopiesClosed synthesis) {type : String}
    {body : CopyBody} (hb : synthesis.copyBody? type = some body) :
    synthesis.helperBody table type = .ok (type, body) := by
  obtain ⟨shape, hg, _⟩ := hclosed.bodies type body hb
  exact helperBody_eq_ok_iff.mpr ⟨shape, Table.resolve_of_get? _ hg, hb⟩

section Calls

variable {type name concrete : String} {body : CopyBody} {how : ElementCopy} {depth : Nat}
  {value : Value} {fault : GenerationError}

/-- A helper that can be called applies its body. -/
theorem copyWithin_helper (h : synthesis.helperBody table type = .ok (name, body)) :
    synthesis.copyWithin table (depth + 1) (.helper type) value =
      applyBody (synthesis.copyWithin table depth) name body value := by
  obtain ⟨shape, hr, hb⟩ := helperBody_eq_ok_iff.mp h
  have hname : (liftM (lifted (Except.ok (name, shape))) : Alloc (String × Shape)) =
      pure (name, shape) := rfl
  rw [copyWithin, hr, hname, pure_bind]
  dsimp only
  rw [hb]
  cases body <;> cases value <;> rfl

/-- A helper that cannot be called fails, whatever it is called with. -/
theorem copyWithin_helper_error (h : synthesis.helperBody table type = .error fault) :
    synthesis.copyWithin table (depth + 1) (.helper type) value = throw fault := by
  rw [helperBody] at h
  rw [copyWithin]
  cases hr : table.resolve type "evaluation" with
  | error cause =>
    rw [hr] at h
    cases h
    rfl
  | ok found =>
    have hname : (liftM (lifted (Except.ok found)) : Alloc (String × Shape)) = pure found := rfl
    rw [hr, lifted, ok_bind] at h
    rw [hname, pure_bind]
    dsimp only at h ⊢
    split at h
    · rename_i hb
      cases h
      rw [hb]
    · cases h

/-- An interface duplicates its value in the way that its concrete type asks for. -/
theorem copyWithin_slot (hv : synthesis.variantCopy table concrete = .ok how) :
    synthesis.copyWithin table (depth + 1) (.capability name) (.slot concrete value) =
      synthesis.copyWithin table depth how value >>= fun copy => pure (.slot concrete copy) := by
  rw [copyWithin, hv]
  rfl

/-- An interface fails when its concrete type has no copy. -/
theorem copyWithin_slot_error (hv : synthesis.variantCopy table concrete = .error fault) :
    synthesis.copyWithin table (depth + 1) (.capability name) (.slot concrete value) =
      throw fault := by
  rw [copyWithin, hv]
  rfl

end Calls

/-- A way that suits by not overriding suits a value without cells. -/
theorem Suits.plain {value : Value} (h : synthesis.Suits table base .assign value) (other : Heap)
    (depth : Nat) : other.storageWithin depth value = [] := by
  cases h with
  | assign hs hp => exact hs.storageWithin_eq_nil hp other depth

/-- A field that is not overridden is assigned. -/
theorem eq_assign_of_not_overridden {copies : List (String × ElementCopy)} {name : String}
    {how : ElementCopy} (hm : (name, how) ∈ copies)
    (hn : name ∉ (CopyBody.record copies).overrides.map Prod.fst) : how = .assign := by
  by_contra hne
  exact hn (List.mem_map.mpr ⟨_, List.mem_filter.mpr ⟨hm, by simpa using hne⟩, rfl⟩)

section Records

variable {step : ElementCopy → Value → Alloc Value} {fields : Fields Value}
  {copies : List (String × ElementCopy)} {contents : List Content}
  (hfields : fields.names.Nodup) (hcopies : (copies.map Prod.fst).Perm fields.names)
  (hsuits : ∀ name part how, (name, part) ∈ fields → (name, how) ∈ copies →
    synthesis.Suits table base how part)
  (hall : List.Forall₂ (synthesis.Duplicates table base step) (fields.map Prod.snd) contents)
include hfields hcopies hsuits hall

/-- What is overridden stands in the record, and the step suits it. -/
theorem overrides_make : ∃ made, List.Forall₂ (fun field content => ∃ part,
    fields.get? field.1 = some part ∧ base.Stores part content ∧
      Makes base content (step field.2 part)) (CopyBody.record copies).overrides made := by
  refine exists_forall₂ fun field hf => ?_
  have hf : field ∈ copies := (List.mem_filter.mp hf).1
  have hn : field.1 ∈ fields.names := hcopies.mem_iff.mp (List.mem_map.mpr ⟨field, hf, rfl⟩)
  obtain ⟨⟨name, part⟩, hp, hname⟩ := List.mem_map.mp hn
  obtain rfl : name = field.1 := hname
  obtain ⟨content, _, hpart⟩ := exists_of_mem_left hall (List.mem_map.mpr ⟨_, hp, rfl⟩)
  exact ⟨content, part, Fields.get?_of_mem hfields hp, hpart.stores,
    hpart.makes _ (hsuits _ part field.2 hp hf)⟩

/-- Overriding the fields of a record that are no value types makes a new record. -/
theorem record_makes (type : String) : Makes base (.record (fields.names.zip contents))
    (applyBody step type (.record copies) (.record fields)) := by
  intro before hb
  obtain ⟨made, hmade⟩ := overrides_make hfields hcopies hsuits hall
  have hsteps : List.Forall₂ (fun field content => ∃ part, fields.get? field.1 = some part ∧
      Makes base content (step field.2 part)) (CopyBody.record copies).overrides made :=
    hmade.imp fun field content hm => by
      obtain ⟨part, hp, _, hm⟩ := hm
      exact ⟨part, hp, hm⟩
  obtain ⟨results, after, hrun, hnames, hfresh⟩ := foldlM_makes step type fields fields hsteps hb
  have hsub : ((CopyBody.record copies).overrides.map Prod.fst).Sublist (copies.map Prod.fst) :=
    List.filter_sublist.map _
  refine ⟨_, after, run_bind_eq_ok hrun rfl, Heap.fresh_override hfields ?_ ?_ hfresh
    (hall.imp fun _ _ h => h.stores) ?_ ?_⟩
  · rw [hnames]
    exact hsub.nodup (hcopies.nodup_iff.mpr hfields)
  · intro n hn
    rw [hnames] at hn
    exact hcopies.mem_iff.mp (hsub.subset hn)
  · intro name part result content hp hr hc
    obtain ⟨field, _, found, hname, ⟨part', hp', hc', _⟩, hresult⟩ :=
      exists_of_mem_named hnames hmade hfresh.stores hr
    rw [hname, Fields.get?_of_mem hfields hp] at hp'
    cases hp'
    exact hc.unique hc' ▸ hresult
  · intro name part content hp hn hc
    obtain ⟨⟨name, how⟩, hcopy, rfl⟩ :=
      List.mem_map.mp (hcopies.mem_iff.mpr (List.mem_map.mpr ⟨_, hp, rfl⟩))
    rw [hnames] at hn
    obtain rfl := eq_assign_of_not_overridden hcopy hn
    have hplain := (hsuits name part _ hp hcopy).plain
    exact ⟨hc.of_storage_eq_nil (hplain base _), hplain after _⟩

end Records

/-- The body of a type makes a new value of a value of its shape, when the constituents can be
duplicated in every way that suits them. -/
theorem applyBody_makes (hclosed : table.CopiesClosed synthesis)
    {step : ElementCopy → Value → Alloc Value} {type : String} {body : CopyBody} {value : Value}
    {contents : List Content} (hb : synthesis.copyBody? type = some body)
    (hs : table.Shaped base (synthesis.Copies table) (.named type) value)
    (ha : ∀ a ∈ value.address?, a < base.size)
    (hall : List.Forall₂ (synthesis.Duplicates table base step) (base.parts value) contents) :
    Makes base (value.assemble contents) (applyBody step type body value) := by
  obtain ⟨shape, hg, hnb, hcopy⟩ := hclosed.bodies type body hb
  have hcalled : ∀ how ∈ body.elements, ∀ helper, how.helper? = some helper →
      (synthesis.copyBody? helper).isSome := fun how hh helper he =>
    hclosed.called type body hb helper (List.mem_filterMap.mpr ⟨how, hh, he⟩)
  rcases Table.copyBody_cases hg hcopy with ⟨hbuiltin, _⟩ | ⟨_, hv, rfl⟩ | ⟨_, _, hspelled⟩
  · simp [hnb] at hbuiltin
  · have hc : base.Stores value (value.assemble contents) :=
      Heap.stores_iff.mpr ⟨contents, hall.imp fun _ _ h => h.stores, rfl⟩
    exact makes_of_plain hc (hs.storageWithin_eq_nil (Table.plainRef_of_isValue hv))
  have hs := hs.definition hg
  cases shape with
  | builtin builtin => simp [Shape.isBuiltin] at hnb
  | dynamic element =>
    obtain ⟨how, he, hbody⟩ := bind_eq_ok_iff.mp hspelled
    cases pure_eq_ok_iff.mp hbody
    obtain ⟨address, rfl, hitems⟩ := hs
    intro before hgrows
    have hread := hgrows.read_eq address (ha address rfl)
    have hsteps := steps_make he (hcalled how List.mem_cons_self) hitems hall
    obtain ⟨values, after, hrun, hfresh⟩ := mapM_makes hsteps hgrows
    rw [← hread] at hrun
    exact ⟨_, _, run_bind_eq_ok rfl (run_bind_eq_ok hrun rfl), hfresh.alloc⟩
  | fixed length element =>
    obtain ⟨how, he, hbody⟩ := bind_eq_ok_iff.mp hspelled
    cases pure_eq_ok_iff.mp hbody
    obtain ⟨items, rfl, _, hitems⟩ := hs
    intro before hgrows
    have hsteps := steps_make he (hcalled how List.mem_cons_self) hitems hall
    obtain ⟨values, after, hrun, hfresh⟩ := mapM_makes hsteps hgrows
    exact ⟨_, _, run_bind_eq_ok hrun rfl, hfresh.array⟩
  | record declared =>
    obtain ⟨copies, rfl, hcopies⟩ := Table.forall₂_fields_of_spelledCopy hspelled
    cases hs with
    | @inline declared fields hn hparts =>
      refine record_makes (hn.nodup_iff.mpr (Table.nodup_of_record hg)) ?_ ?_ hall type
      · rw [names_eq_of_forall₂ hcopies]
        exact hn.symm
      · intro name part how hp hh
        obtain ⟨⟨name, ref⟩, hd, rfl, he⟩ := exists_of_mem_right hcopies hh
        have hmem : how ∈ (CopyBody.record copies).elements := List.mem_map.mpr ⟨_, hh, rfl⟩
        exact suits_of_elementCopy he (hcalled how hmem) (hparts name ref part hd hp)

/-- Duplicating a finite value in a way that suits it makes a new value with the same content. Each
step goes one level down in the value. -/
theorem copyWithin_makes (hclosed : table.CopiesClosed synthesis) {depth : Nat} {how : ElementCopy}
    {value : Value} {content : Content} (hc : base.contentWithin depth value = some content)
    (ha : ∀ a ∈ base.storage value, a < base.size)
    (hs : synthesis.Suits table base how value) :
    Makes base content (synthesis.copyWithin table depth how value) := by
  induction depth generalizing how value content with
  | zero => simp [Heap.contentWithin] at hc
  | succ depth ih =>
    have hstores : base.Stores value content := ⟨_, hc⟩
    obtain ⟨contents, hall, rfl⟩ := Heap.contentWithin_succ_iff.mp hc
    -- what a part may need is known from the level below
    have hparts : List.Forall₂
        (synthesis.Duplicates table base (synthesis.copyWithin table depth))
        (base.parts value) contents :=
      forall₂_imp_of_mem hall fun part hp inner _ hi => ⟨⟨depth, hi⟩, fun how hs =>
        ih hi (fun a hm => ha a (hstores.mem_storage_of_part hp hm)) hs⟩
    cases hs with
    | assign hs hp => exact makes_of_plain hstores (hs.storageWithin_eq_nil hp)
    | external => exact makes_detach hstores ha
    | unset => exact fun before _ => ⟨_, before, rfl, .of_parts_nil .unset rfl rfl rfl⟩
    | @slot name concrete inner hcopies hs =>
      obtain ⟨how, hv, hsuits⟩ := variantCopy_suits hcopies hs
      cases hparts with
      | cons hpart hnil =>
        cases hnil
        intro before hgrows
        obtain ⟨copy, after, hrun, hfresh⟩ := hpart.makes how hsuits before hgrows
        rw [copyWithin_slot hv]
        exact ⟨.slot concrete copy, after, run_bind_eq_ok hrun rfl, hfresh.slot⟩
    | @helper type _ hb hs =>
      obtain ⟨body, hb⟩ := Option.isSome_iff_exists.mp hb
      rw [copyWithin_helper (helperBody_of_copyBody? hclosed hb)]
      exact applyBody_makes hclosed hb hs (fun a hm => ha a (hstores.mem_storage_of_address hm))
        hparts

end Synthesis

/-- What a deep copy of a value with this content has to be. -/
structure Heap.DeepCopy (before : Heap) (value : Value) (content : Content) (copy : Value)
    (after : Heap) : Prop where
  /-- The copy has the same content. -/
  same : after.content? copy = some content
  /-- All sequences of the copy have new cells. -/
  new : ∀ a ∈ after.storage copy, before.size ≤ a ∧ a < after.size
  /-- No two sequences of the copy share a cell. -/
  apart : (after.storage copy).Nodup
  /-- No cell that was there has changed. -/
  old : ∀ a < before.size, after.read a = before.read a
  /-- Later changes outside the new cells are not seen in the copy. -/
  copyKept : ∀ later : Heap, (∀ a ∈ after.storage copy, later.read a = after.read a) →
    later.content? copy = some content
  /-- Later changes outside the old cells are not seen in the value. -/
  valueKept : ∀ later : Heap, (∀ a < before.size, later.read a = before.read a) →
    later.content? value = some content

/-- A new value with the content of a value whose cells are allocated is a deep copy of it. -/
theorem Heap.Fresh.deepCopy {before after : Heap} {value copy : Value} {content : Content}
    (h : before.Fresh content copy after) (hc : before.Stores value content)
    (ha : ∀ a ∈ before.storage value, a < before.size) :
    before.DeepCopy value content copy after := by
  refine ⟨Heap.content?_eq_some_iff.mpr h.stores, h.cells, h.distinct, h.grows.read_eq,
    fun later hl => ?_, fun later hl => ?_⟩
  · exact Heap.content?_eq_some_iff.mpr (h.stores.congr hl).1
  · exact Heap.content?_eq_some_iff.mpr (hc.congr fun a hm => hl a (ha a hm)).1

/-- The copy method of a type makes a deep copy of every finite value of its shape. -/
theorem Table.deepCopy_of_synthesize {table : Table} {language : Code.Language} {config : Config}
    {roots : List String} {synthesis : Synthesis}
    (h : table.synthesize language config roots = .ok synthesis) {type : String}
    (ht : (synthesis.copyBody? type).isSome) {heap : Heap} {value : Value} {content : Content}
    (hc : heap.Stores value content) (ha : ∀ a ∈ heap.storage value, a < heap.size)
    (hs : table.Shaped heap (synthesis.Copies table) (.named type) value) :
    ∃ copy after, (synthesis.copy table type value).run heap = .ok (copy, after) ∧
      heap.DeepCopy value content copy after := by
  have hwithin : heap.contentWithin (heap.depthBound value) value = some content :=
    Heap.content?_eq_some_iff.mpr hc
  have hle : heap.depthBound value ≤ heap.depthBound value * (table.size + 2) :=
    Nat.le_mul_of_pos_right _ (by omega)
  obtain ⟨copy, after, hrun, hfresh⟩ :=
    Synthesis.copyWithin_makes (table.copiesClosed_of_synthesize h)
      (Heap.contentWithin_mono hle hwithin) ha (.helper ht hs) heap (.refl heap)
  exact ⟨copy, after, hrun, hfresh.deepCopy hc ha⟩

namespace Table

/-- A node with a pair behind its interface, followed by one more node. -/
def ringNode : Value :=
  .record [("label", .scalar (.int 1)), ("next", .seq 1),
    ("shape", .slot "Pair" (.array [.scalar (.int 3), .scalar (.int 4)]))]

/-- The cells of the nodes that follow. -/
def ringHeap : Heap where
  cells := #[[], [.record [("label", .scalar (.int 2)), ("next", .seq 0), ("shape", .unset)]]]

theorem shaped_ringNode {admits : String → Prop} (hp : admits "Pair") :
    ring.Shaped ringHeap admits (.named "Node") ringNode := by
  have number : ∀ x, ring.Shaped ringHeap admits (.named "i32") (.scalar x) :=
    fun x => .scalar rfl (.inl rfl)
  have node : ∀ x shape address, ring.Shaped ringHeap admits (.named "Drawable") shape →
      ring.Shaped ringHeap admits (.named "Nodes") (.seq address) →
      ring.Shaped ringHeap admits (.named "Node")
        (.record [("label", .scalar x), ("next", .seq address), ("shape", shape)]) := by
    intro x shape address hshape hnext
    have hnames : List.Perm ["label", "next", "shape"] ["label", "shape", "next"] := by decide
    refine .record rfl (.inline hnames fun name ref part hd hm => ?_)
    simp only [List.mem_cons, List.not_mem_nil, or_false, Prod.mk.injEq] at hm
    rcases hm with ⟨rfl, rfl⟩ | ⟨rfl, rfl⟩ | ⟨rfl, rfl⟩
    · obtain rfl : ref = .named "i32" := by simpa using hd
      exact number x
    · obtain rfl : ref = .named "Nodes" := by simpa using hd
      exact hnext
    · obtain rfl : ref = .named "Drawable" := by simpa using hd
      exact hshape
  have second := node (.int 2) .unset 0 (.unset rfl rfl)
    (.dynamic rfl fun item hi => absurd hi List.not_mem_nil)
  have pair : ring.Shaped ringHeap admits (.named "Pair")
      (.array [.scalar (.int 3), .scalar (.int 4)]) := by
    refine .fixed rfl rfl fun item hi => ?_
    rcases List.mem_pair.mp hi with rfl | rfl
    · exact number _
    · exact number _
  refine node _ _ _ (.slot rfl rfl hp pair) (.dynamic rfl fun item hi => ?_)
  cases List.mem_singleton.mp hi
  exact .aliased rfl second

theorem deepCopy_ring :
    ∃ synthesis content copy after, ring.synthesize Reader.language {} ["Ring"] = .ok synthesis ∧
      (synthesis.copy ring "Node" ringNode).run ringHeap = .ok (copy, after) ∧
      ringHeap.DeepCopy ringNode content copy after := by
  have ht : (ringMethods.copyBody? "Node").isSome := rfl
  obtain ⟨copy, after, hrun, hdeep⟩ := deepCopy_of_synthesize synthesize_ring ht ⟨5, rfl⟩
    (by decide +kernel) (shaped_ringNode (.inr rfl))
  exact ⟨ringMethods, _, copy, after, synthesize_ring, hrun, hdeep⟩

end Table

end CopySynth
