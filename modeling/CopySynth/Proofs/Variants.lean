import CopySynth.Proofs.CopyDepth

/-!
# Copies behind interfaces

A value behind an interface is copied by its concrete type. Where the concrete type has a copy, the
interface copies what the type copies, whatever the value is. An alias has a copy too, that of the
type it leads to, but is not looked for under the name of that type behind an interface: there, only
the aliases of value types can be copied.
-/

namespace CopySynth

namespace Table

/-- Another name for a type that is found to be no value type. -/
def StoringAlias (table : Table) (name : String) : Prop :=
  (∃ target, table.get? name = some (.aliasOf target)) ∧ table.Storing name

variable {table : Table}

theorem classified_of_isValueName {name context : String} {value : Bool}
    (h : table.isValueName name context = .ok value) : table.Classified name value := by
  rw [isValueName, isValue_eq, Ref.mentions] at h
  cases value with
  | true => exact classified_of_judge (allM_eq_ok_true_iff.mp h _ (List.mem_singleton_self _))
  | false =>
    obtain ⟨before, part, after, hsplit, _, hp⟩ := allM_eq_ok_false_iff.mp h
    have hm : part ∈ [Mention.mk name context] := hsplit ▸ by simp
    obtain rfl := List.mem_singleton.mp hm
    exact classified_of_judge hp

/-- What a type is found to be, it is found to be under all its names. -/
theorem LeadsTo.classified {name canonical : String} {shape : Shape} {value : Bool}
    (h : table.LeadsTo name canonical shape) (hc : table.Classified canonical value) :
    table.Classified name value := by
  induction h with
  | type => exact hc
  | @aliased name target canonical shape hg _ ih =>
    cases value with
    | true => exact .intro hg rfl fun mention hm => List.mem_singleton.mp hm ▸ ih hc
    | false =>
      have hpart : (Definition.aliasOf target).contained name =
        [] ++ ⟨target, aliasContext name⟩ :: [] := rfl
      exact .part hg rfl hpart (by simp) (ih hc)

end Table

namespace Synthesis

variable {table : Table} {language : Code.Language} {synthesis : Synthesis} {heap after : Heap}
  {value copy : Value}

/-- A copy under the name of a type applies the body of the type it leads to. -/
theorem applyBody_of_copyWithin {depth : Nat} {type : String}
    (h : (synthesis.copyWithin table (depth + 1) (.helper type) value).run heap =
      .ok (copy, after)) :
    ∃ name shape body, table.LeadsTo type name shape ∧ synthesis.copyBody? name = some body ∧
      (applyBody (synthesis.copyWithin table depth) name body value).run heap =
        .ok (copy, after) := by
  cases hb : synthesis.helperBody table type with
  | error fault =>
    rw [copyWithin_helper_error hb] at h
    cases h
  | ok found =>
    rw [copyWithin_helper hb] at h
    obtain ⟨shape, hr, hmade⟩ := helperBody_eq_ok_iff.mp hb
    exact ⟨found.1, shape, found.2, Table.leadsTo_of_resolve hr, hmade, h⟩

/-- A copy of a type has the name of the type, never that of an alias. -/
theorem copyBody?_of_alias (hclosed : table.CopiesClosed synthesis) {name target : String}
    (hg : table.get? name = some (.aliasOf target)) : synthesis.copyBody? name = none := by
  cases hb : synthesis.copyBody? name with
  | none => rfl
  | some body =>
    obtain ⟨shape, hg', _⟩ := hclosed.bodies name body hb
    rw [hg] at hg'
    cases hg'

/-- The copy of a value type duplicates plainly, any other copy is that of a type that is found to be
no value type. -/
theorem classified_of_copyBody? (hclosed : table.CopiesClosed synthesis) {name : String}
    {body : CopyBody} (hb : synthesis.copyBody? name = some body) :
    (table.Classified name true ∧ body = .shallow) ∨ table.Classified name false := by
  obtain ⟨shape, hg, hnb, hbody⟩ := hclosed.bodies name body hb
  rcases Table.copyBody_cases hg hbody with ⟨hbuiltin, _⟩ | ⟨_, hv, rfl⟩ | ⟨_, hv, _⟩
  · rw [hnb] at hbuiltin
    cases hbuiltin
  · exact .inl ⟨Table.classified_of_isValueName hv, rfl⟩
  · exact .inr (Table.classified_of_isValueName hv)

/-- Behind an interface an alias of a value type is duplicated plainly. Any other alias is not. -/
theorem variantCopy_of_alias (hclosed : table.CopiesClosed synthesis) {name target : String}
    (hg : table.get? name = some (.aliasOf target)) {value : Bool}
    (hc : table.Classified name value) :
    synthesis.variantCopy table name =
      if value then .ok .assign else .error (.evaluation (.uncopiedVariant name)) := by
  rw [variantCopy, copyBody?_of_alias hclosed hg, Table.isValueName_of_classified hc]
  cases value <;> rfl

/-- An interface copies a value in the way its concrete type is copied. -/
theorem run_copyWithin_slot {depth : Nat} (interface : String) {concrete : String}
    {how : ElementCopy} (hv : synthesis.variantCopy table concrete = .ok how)
    (hrun : (synthesis.copyWithin table depth how value).run heap = .ok (copy, after)) :
    (synthesis.copyWithin table (depth + 1) (.capability interface) (.slot concrete value)).run
      heap = .ok (.slot concrete copy, after) := by
  rw [copyWithin_slot hv]
  exact run_bind_eq_ok hrun rfl

/-- Whatever the copy of a type copies, an interface that holds it copies in the same way, unless the
type goes by the name of an alias and is no value type. Then the interface cannot be copied. -/
theorem copyWithin_slot_of_copy {config : Config} {roots : List String}
    (h : table.synthesize language config roots = .ok synthesis) {concrete : String}
    (hcopy : (synthesis.copy table concrete value).run heap = .ok (copy, after))
    (interface : String) {depth : Nat}
    (hd : heap.depthBound (.slot concrete value) * (table.size + 2) ≤ depth) :
    (¬ table.StoringAlias concrete →
      (synthesis.copyWithin table depth (.capability interface) (.slot concrete value)).run heap =
        .ok (.slot concrete copy, after)) ∧
    (table.StoringAlias concrete →
      (synthesis.copyWithin table depth (.capability interface) (.slot concrete value)).run heap =
        .error (.evaluation (.uncopiedVariant concrete))) := by
  have hclosed := table.copiesClosed_of_synthesize h
  have hrun : (synthesis.copyWithin table (heap.depthBound value * (table.size + 2))
      (.helper concrete) value).run heap = .ok (copy, after) := hcopy
  -- one level is left for the interface
  obtain ⟨depth, rfl, hdepth⟩ : ∃ inner, depth = inner + 1 ∧
      heap.depthBound value * (table.size + 2) ≤ inner := by
    have hbound : heap.depthBound (.slot concrete value) = heap.depthBound value + 1 := rfl
    rw [hbound, Nat.add_mul, Nat.one_mul] at hd
    exact ⟨depth - 1, by omega, by omega⟩
  have hdeep := synthesis.copyWithin_refines table hdepth (.helper concrete) value _ _ hrun
  obtain ⟨depth, rfl⟩ : ∃ inner, depth = inner + 1 := by
    cases depth with
    | zero => cases hdeep
    | succ inner => exact ⟨inner, rfl⟩
  obtain ⟨name, shape, body, hl, hb, happly⟩ := applyBody_of_copyWithin hdeep
  cases hl with
  | type hg =>
    -- a type that is found under its own name
    refine ⟨fun _ => run_copyWithin_slot interface (variantCopy_of_copyBody? hb) hdeep,
      fun h => ?_⟩
    obtain ⟨⟨target, hg'⟩, _⟩ := h
    cases hg.symm.trans hg'
  | @aliased _ target _ _ hg ht =>
    have hl : table.LeadsTo concrete name shape := .aliased hg ht
    rcases classified_of_copyBody? hclosed hb with ⟨hvalue, rfl⟩ | hvalue
    · -- a value type is duplicated plainly, here and there
      have hplain := hl.classified hvalue
      cases happly
      exact ⟨fun _ => run_copyWithin_slot interface (variantCopy_of_alias hclosed hg hplain) rfl,
        fun hs => absurd hplain hs.2.not_plain⟩
    · have hstoring := hl.classified hvalue
      refine ⟨fun hs => absurd ⟨⟨target, hg⟩, hstoring⟩ hs, fun _ => ?_⟩
      rw [copyWithin_slot_error (variantCopy_of_alias hclosed hg hstoring)]
      rfl

end Synthesis

namespace Table

/-- Pictures go by another name. A frame holds any image. -/
def studio : Table where
  entries := [("Image", .capability), ("u8", .type (.builtin {})),
    ("Pixels", .type (.dynamic (.named "u8"))),
    ("Picture", .type (.record [("pixels", .named "Pixels")])),
    ("Photo", .aliasOf "Picture"), ("Frame", .type (.record [("image", .named "Image")]))]
  distinct_names := by decide
  distinct_fields := by
    simp [Definition.Distinct, Definition.capability, Shape.Distinct, Ref.FieldsDistinct,
      Ref.Distinct]

/-- A picture with one cell. -/
def studioPicture : Value := .record [("pixels", .seq 0)]

/-- The pixels of the picture. -/
def studioHeap : Heap where
  cells := #[[.scalar (.int 7)]]

/-- A picture in a frame is copied like the picture. -/
theorem copyWithin_slot_studio :
    ∃ synthesis copy after,
      studio.synthesize Reader.language {} ["Frame", "Picture"] = .ok synthesis ∧
      (synthesis.copy studio "Picture" studioPicture).run studioHeap = .ok (copy, after) ∧
      (synthesis.copyWithin studio 100 (.capability "Image") (.slot "Picture" studioPicture)).run
        studioHeap = .ok (.slot "Picture" copy, after) := by
  obtain ⟨synthesis, copy, after, h, hcopy⟩ : ∃ synthesis copy after,
      studio.synthesize Reader.language {} ["Frame", "Picture"] = .ok synthesis ∧
        (synthesis.copy studio "Picture" studioPicture).run studioHeap = .ok (copy, after) :=
    ⟨_, _, _, rfl, rfl⟩
  refine ⟨synthesis, copy, after, h, hcopy, ?_⟩
  refine (Synthesis.copyWithin_slot_of_copy h hcopy "Image" (by decide)).1 ?_
  rintro ⟨⟨target, hg⟩, _⟩
  cases hg

/-- A photo can be copied, a frame that holds it cannot. -/
theorem copy_photo_studio :
    ∃ synthesis copy after,
      studio.synthesize Reader.language {} ["Frame", "Picture"] = .ok synthesis ∧
      (synthesis.copy studio "Photo" studioPicture).run studioHeap = .ok (copy, after) ∧
      (synthesis.copy studio "Frame" (.record [("image", .slot "Photo" studioPicture)])).run
        studioHeap = .error (.evaluation (.uncopiedVariant "Photo")) :=
  ⟨_, _, _, rfl, rfl, rfl⟩

end Table

end CopySynth
