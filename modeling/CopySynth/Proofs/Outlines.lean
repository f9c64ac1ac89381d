import CopySynth.Proofs.Equality
import CopySynth.Proofs.Shapes
import CopySynth.Proofs.ZeroValues

/-!
# Values to compare with a zero value

A value has the outline of a type when it is put together from the fields and items that the type
holds in place. Of a growable sequence or an interface the outline says no more than that it is one,
and of a plain builtin nothing. That is enough to compare the value with the zero value of the type
from either side; the zero value has the outline itself.
-/

namespace CopySynth

/-- A value is put together as a type says, given what is asked of the parts it holds in place. -/
inductive Shape.Outlines (P : Ref → Value → Prop) : Shape → Value → Prop
  | plain {type value} (hm : type.marker.ownsStorage = false) : Outlines P (.builtin type) value
  | external {type address} (hm : type.marker = .externalSequence) :
      Outlines P (.builtin type) (.seq address)
  | unset {type} (hm : type.marker = .capability) : Outlines P (.builtin type) .unset
  | slot {type concrete value} (hm : type.marker = .capability) :
      Outlines P (.builtin type) (.slot concrete value)
  | fixed {length element items} (hl : items.length = length)
      (h : ∀ item ∈ items, P element item) : Outlines P (.fixed length element) (.array items)
  | dynamic {element address} : Outlines P (.dynamic element) (.seq address)
  | record {fields value} (h : P (.inline fields) value) : Outlines P (.record fields) value

/-- A value has the outline of what a reference refers to. -/
inductive Table.Outlined (table : Table) : Ref → Value → Prop
  | named {name canonical shape value} (hl : table.LeadsTo name canonical shape)
      (h : shape.Outlines (Outlined table) value) : Outlined table (.named name) value
  | inline {declared fields} (hn : (Fields.names fields).Perm (Fields.names declared))
      (hs : ∀ name ref part, (name, ref) ∈ declared → (name, part) ∈ fields →
        Outlined table ref part) : Outlined table (.inline declared) (.record fields)

namespace Table

variable {table : Table} {heap : Heap}

theorem Outlined.outlines {name canonical : String} {shape : Shape} {value : Value}
    (h : table.Outlined (.named name) value) (hl : table.LeadsTo name canonical shape) :
    shape.Outlines table.Outlined value := by
  cases h with
  | named hl' h =>
    obtain ⟨rfl, rfl⟩ := hl.unique hl'
    exact h

/-- What holds of a value of a type when it holds of the parts held in place, and of a record when
it holds of its fields, holds of all values of the outline of a reference. -/
theorem Outlined.induct {P : Ref → Value → Prop}
    (named : ∀ name canonical shape value, table.LeadsTo name canonical shape →
      shape.Outlines P value → P (.named name) value)
    (inline : ∀ (declared : List (String × Ref)) (fields : Fields Value),
      (Fields.names fields).Perm (Fields.names declared) →
      (∀ name ref part, (name, ref) ∈ declared → (name, part) ∈ fields → P ref part) →
      P (.inline declared) (.record fields))
    {ref : Ref} {value : Value} (h : table.Outlined ref value) : P ref value :=
  @Outlined.rec table (fun ref value _ => P ref value)
    (fun shape value _ => shape.Outlines P value)
    (fun hl _ ih => named _ _ _ _ hl ih) (fun hn _ ih => inline _ _ hn ih)
    .plain .external .unset .slot (fun hl _ ih => .fixed hl ih) .dynamic (fun _ ih => .record ih)
    ref value h

/-- A value of the shape of a type has its outline. -/
theorem Shaped.outlined {admits : String → Prop} {ref : Ref} {value : Value}
    (h : table.Shaped heap admits ref value) : table.Outlined ref value := by
  induction h with
  | aliased hg _ ih =>
    cases ih with
    | named hl h => exact .named (.aliased hg hl) h
  | scalar hg hm => exact .named (.type hg) (.plain (by rcases hm with hm | hm <;> rw [hm] <;> rfl))
  | external hg hm => exact .named (.type hg) (.external hm)
  | unset hg hm => exact .named (.type hg) (.unset hm)
  | slot hg hm => exact .named (.type hg) (.slot hm)
  | fixed hg hl _ ih => exact .named (.type hg) (.fixed hl ih)
  | dynamic hg => exact .named (.type hg) .dynamic
  | record hg _ ih => exact .named (.type hg) (.record ih)
  | inline hn _ ih => exact .inline hn ih

theorem distinct_of_get? {name : String} {shape : Shape}
    (hg : table.get? name = some (.type shape)) : shape.Distinct :=
  table.distinct_fields _ (get?_eq_some_iff.mp hg)

/-- No zero expression of the table reads as what is no number. -/
def ZerosAreNumbers (table : Table) : Prop :=
  ∀ name type literal x, (name, .type (.builtin type)) ∈ table.entries →
    type.zero = some literal → Scalar.ofLiteral literal = .float x → x.isNaN = false

end Table

namespace Heap

variable {heap : Heap} {value : Value}

theorem Stores.exists_seq {contents : List Content} (h : heap.Stores value (.seq contents)) :
    ∃ address, value = .seq address := by
  obtain ⟨_, _, he⟩ := stores_iff.mp h
  cases value with
  | seq address => exact ⟨address, rfl⟩
  | scalar | record | array | unset | slot => cases he

theorem Stores.eq_unset (h : heap.Stores value .unset) : value = .unset := by
  obtain ⟨_, _, he⟩ := stores_iff.mp h
  cases value with
  | unset => rfl
  | scalar | record | array | seq | slot => cases he

theorem Stores.exists_array {contents : List Content} (h : heap.Stores value (.array contents)) :
    ∃ items, value = .array items ∧ List.Forall₂ heap.Stores items contents := by
  obtain ⟨_, hall, he⟩ := stores_iff.mp h
  cases value with
  | array items =>
    cases he
    exact ⟨items, rfl, hall⟩
  | scalar | record | seq | unset | slot => cases he

/-- The fields of a record have the contents of its names, in order. -/
theorem Stores.exists_record {contents : Fields Content}
    (h : heap.Stores value (.record contents)) :
    ∃ fields : Fields Value, value = .record fields ∧ List.Forall₂ (fun field content =>
      content.1 = field.1 ∧ heap.Stores field.2 content.2) fields contents := by
  obtain ⟨_, _, he⟩ := stores_iff.mp h
  cases value with
  | record fields =>
    obtain ⟨contents', he, hall⟩ := stores_record_iff.mp h
    cases he
    exact ⟨fields, rfl, hall⟩
  | scalar | array | seq | unset | slot => cases he

end Heap

/-! ## Zero values -/

/-- The zero value of a builtin has no parts. -/
theorem Builtin.zeroContent_cases (type : Builtin) :
    (type.marker = .capability ∧ type.zeroContent = .unset) ∨
    (type.marker = .externalSequence ∧ type.zeroContent = .seq []) ∨
    (type.marker.ownsStorage = false ∧ ∃ x, type.zeroContent = .scalar x ∧
      ∀ y, x = .float y → ∃ literal, type.zero = some literal ∧ Scalar.ofLiteral literal = x) := by
  unfold zeroContent
  cases hm : type.marker with
  | capability => exact .inl ⟨rfl, rfl⟩
  | externalSequence => exact .inr (.inl ⟨rfl, rfl⟩)
  | value | setLike =>
    refine .inr (.inr ⟨rfl, ?_⟩)
    cases hz : type.zero with
    | none => exact ⟨_, rfl, by simp⟩
    | some literal => exact ⟨_, rfl, fun y hy => ⟨literal, rfl, rfl⟩⟩

/-- So it is compared alike from either side. -/
theorem Builtin.zeroContent_equal_comm (type : Builtin) (content : Content) :
    type.zeroContent.equal content = content.equal type.zeroContent := by
  rcases type.zeroContent_cases with ⟨_, hz⟩ | ⟨_, hz⟩ | ⟨_, x, hz, _⟩
  · rw [hz]
    cases content <;> rfl
  · rw [hz]
    exact content.equal_seq_nil_comm
  · rw [hz]
    cases content with
    | scalar y => exact x.equal_comm y
    | record | array | seq | unset | slot => rfl

namespace Table

variable {table : Table} {heap : Heap}

/-- A zero value has the outline of its type. -/
theorem outlined_of_isZero {ref : Ref} {zero : Content} (hz : table.IsZero ref zero)
    (hd : ref.Distinct) {value : Value} (hc : heap.Stores value zero) :
    table.Outlined ref value := by
  refine hz.induct (P := fun ref zero => ref.Distinct → ∀ value, heap.Stores value zero →
    table.Outlined ref value) ?_ ?_ hd value hc
  · intro name canonical shape zero hl hz _ value hc
    have hd := distinct_of_get? hl.get?
    refine .named hl ?_
    cases hz with
    | @builtin type =>
      rcases type.zeroContent_cases with ⟨hm, hz⟩ | ⟨hm, hz⟩ | ⟨hm, _⟩
      · rw [hz] at hc
        rw [hc.eq_unset]
        exact .unset hm
      · rw [hz] at hc
        obtain ⟨address, rfl⟩ := hc.exists_seq
        exact .external hm
      · exact .plain hm
    | dynamic =>
      obtain ⟨address, rfl⟩ := hc.exists_seq
      exact .dynamic
    | empty =>
      obtain ⟨items, rfl, hall⟩ := hc.exists_array
      cases hall
      exact .fixed rfl fun item hi => absurd hi List.not_mem_nil
    | fixed _ h =>
      obtain ⟨items, rfl, hall⟩ := hc.exists_array
      refine .fixed (by simpa using hall.length_eq) fun item hi => ?_
      obtain ⟨content, hm, hs⟩ := exists_of_mem_left hall hi
      rw [List.eq_of_mem_replicate hm] at hs
      exact h hd item hs
    | record h => exact .record (h hd value hc)
  · intro fields zeros hf hd value hc
    obtain ⟨parts, rfl, hall⟩ := hc.exists_record
    have hnames : Fields.names parts = Fields.names fields :=
      (names_eq_of_forall₂ hall).symm.trans (names_eq_of_forall₂ hf)
    refine .inline (hnames ▸ .refl _) fun name ref part hr hp => ?_
    obtain ⟨⟨name, zero⟩, hm, rfl, hs⟩ := exists_of_mem_left hall hp
    have hzero := rel_of_mem_named hf hd.1 hr hm rfl
    exact hzero ((Ref.fieldsDistinct_iff fields).mp hd.2 _ hr) part hs

/-- A value of the outline of a type is compared with the zero value alike from either side. -/
theorem equal_comm_of_isZero {ref : Ref} {zero : Content} (hz : table.IsZero ref zero)
    (hd : ref.Distinct) {value : Value} {content : Content} (ho : table.Outlined ref value)
    (hc : heap.Stores value content) : zero.equal content = content.equal zero := by
  refine hz.induct (P := fun ref zero => ref.Distinct → ∀ value content,
    table.Outlined ref value → heap.Stores value content →
      zero.equal content = content.equal zero) ?_ ?_ hd value content ho hc
  · intro name canonical shape zero hl hz _ value content ho hc
    have hd := distinct_of_get? hl.get?
    have ho := ho.outlines hl
    cases hz with
    | @builtin type => exact type.zeroContent_equal_comm content
    | dynamic => exact content.equal_seq_nil_comm
    | empty =>
      cases ho with
      | fixed =>
        obtain ⟨contents, _, rfl⟩ := Heap.stores_iff.mp hc
        exact Content.equalItems_comm fun x hx => absurd hx List.not_mem_nil
    | fixed _ h =>
      cases ho with
      | fixed _ hitems =>
        obtain ⟨contents, hall, rfl⟩ := Heap.stores_iff.mp hc
        refine Content.equalItems_comm fun zero hzero content hm => ?_
        obtain ⟨item, hi, hs⟩ := exists_of_mem_right hall hm
        rw [List.eq_of_mem_replicate hzero]
        exact h hd item content (hitems item hi) hs
    | record h =>
      cases ho with
      | record ho => exact h hd value content ho hc
  · intro fields zeros hf hd value content ho hc
    cases ho with
    | @inline _ parts hn hs =>
      obtain ⟨contents, rfl, hall⟩ := Heap.stores_record_iff.mp hc
      have hnames : Fields.names zeros = Fields.names fields := names_eq_of_forall₂ hf
      have hparts : Fields.names contents = Fields.names parts := names_eq_of_forall₂ hall
      -- both records have the declared names, each in an order of its own
      have hcomm : Content.equalFields zeros contents = Content.equalFields contents zeros := by
        refine Content.equalFields_comm (hnames ▸ hd.1) (hparts ▸ hnames ▸ hn) ?_
        intro name zero content hm hm'
        obtain ⟨⟨name, ref⟩, hr, rfl, h⟩ := exists_of_mem_right hf hm
        obtain ⟨⟨name', part⟩, hp, rfl, hstores⟩ := exists_of_mem_right hall hm'
        exact h ((Ref.fieldsDistinct_iff fields).mp hd.2 _ hr) part content
          (hs _ ref part hr hp) hstores
      show (zeros.length == contents.length && _) = (contents.length == zeros.length && _)
      rw [hcomm, BEq.comm]

/-- A zero value equals itself unless it is no number somewhere. -/
theorem equal_self_of_isZero (hn : table.ZerosAreNumbers) {ref : Ref} {zero : Content}
    (hz : table.IsZero ref zero) (hd : ref.Distinct) : zero.equal zero = true := by
  refine hz.induct (P := fun ref zero => ref.Distinct → zero.equal zero = true) ?_ ?_ hd
  · intro name canonical shape zero hl hz _
    have hd := distinct_of_get? hl.get?
    cases hz with
    | @builtin type =>
      rcases type.zeroContent_cases with ⟨_, hz⟩ | ⟨_, hz⟩ | ⟨_, x, hz, hread⟩
      · rw [hz]
        rfl
      · rw [hz]
        rfl
      · rw [hz]
        refine Scalar.equal_self fun y hy => ?_
        obtain ⟨literal, hliteral, he⟩ := hread y hy
        exact hn _ type literal y (get?_eq_some_iff.mp hl.get?) hliteral (he.trans hy)
    | dynamic | empty => rfl
    | fixed _ h =>
      refine Content.equalItems_self fun x hx => ?_
      rw [List.eq_of_mem_replicate hx]
      exact h hd
    | record h => exact h hd
  · intro fields zeros hf hd
    have hnames : Fields.names zeros = Fields.names fields := names_eq_of_forall₂ hf
    show (zeros.length == zeros.length && _) = true
    rw [beq_self_eq_true, Bool.true_and]
    refine Content.equalFields_iff.mpr fun name zero hm => ?_
    obtain ⟨⟨name, ref⟩, hr, rfl, h⟩ := exists_of_mem_right hf hm
    exact ⟨zero, Fields.get?_of_mem (hnames ▸ hd.1) hm,
      h ((Ref.fieldsDistinct_iff fields).mp hd.2 _ hr)⟩

end Table

end CopySynth
