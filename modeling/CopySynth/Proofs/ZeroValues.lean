import CopySynth.Evaluation.ZeroValue
import CopySynth.Proofs.Containment

/-!
# The zero values of a sound table

`IsZero` says what the zero value of a reference is, however deep its parts are nested. In a table
that passes the check every reference to a type of the table has one, and the bound on the depth is
never reached.
-/

namespace CopySynth

/-- The zero value of a type, given those of the references in it. -/
inductive Shape.HasZero (P : Ref → Content → Prop) : Shape → Content → Prop
  | builtin {type} : HasZero P (.builtin type) type.zeroContent
  | dynamic {element} : HasZero P (.dynamic element) (.seq [])
  | empty {element} : HasZero P (.fixed 0 element) (.array [])
  | fixed {length element zero} (hl : length ≠ 0) (h : P element zero) :
      HasZero P (.fixed length element) (.array (List.replicate length zero))
  | record {fields zero} (h : P (.inline fields) zero) : HasZero P (.record fields) zero

theorem Shape.HasZero.imp {P Q : Ref → Content → Prop} (hi : ∀ ref zero, P ref zero → Q ref zero)
    {shape : Shape} {zero : Content} (h : shape.HasZero P zero) : shape.HasZero Q zero := by
  cases h with
  | builtin => exact .builtin
  | dynamic => exact .dynamic
  | empty => exact .empty
  | fixed hl h => exact .fixed hl (hi _ _ h)
  | record h => exact .record (hi _ _ h)

namespace Ref

variable {ofName : String → Except GenerationError Content}

theorem fieldsZero_eq_ok_iff {fields : List (String × Ref)} {zeros : List (String × Content)} :
    fieldsZero ofName fields = .ok zeros ↔
      List.Forall₂ (fun field zero => zero.1 = field.1 ∧ field.2.zeroContent ofName = .ok zero.2)
        fields zeros := by
  induction fields generalizing zeros with
  | nil =>
    rw [fieldsZero, pure_eq_ok_iff, List.forall₂_nil_left_iff]
    exact eq_comm
  | cons field fields ih =>
    obtain ⟨name, ref⟩ := field
    simp only [fieldsZero, bind_eq_ok_iff, pure_eq_ok_iff, List.forall₂_cons_left_iff, ih]
    constructor
    · rintro ⟨zero, hz, rest, hr, rfl⟩
      exact ⟨(name, zero), rest, ⟨rfl, hz⟩, hr, rfl⟩
    · rintro ⟨⟨_, zero⟩, rest, ⟨rfl, hz⟩, hr, rfl⟩
      exact ⟨zero, hz, rest, hr, rfl⟩

theorem zeroContent_inline_eq_ok_iff {fields : List (String × Ref)} {zero : Content} :
    (Ref.inline fields).zeroContent ofName = .ok zero ↔
      ∃ zeros, fieldsZero ofName fields = .ok zeros ∧ zero = .record zeros := by
  simp only [zeroContent, bind_eq_ok_iff, pure_eq_ok_iff]
  exact exists_congr fun _ => and_congr_right fun _ => eq_comm

mutual
/-- What holds of the zero values of names, and of a record when it holds of its fields, holds of
the zero value of every reference. -/
theorem zeroContent_induct {P : Ref → Content → Prop}
    (named : ∀ name zero, ofName name = .ok zero → P (.named name) zero)
    (inline : ∀ fields zeros, List.Forall₂ (fun field zero => zero.1 = field.1 ∧
      P field.2 zero.2) fields zeros → P (.inline fields) (.record zeros)) :
    ∀ (ref : Ref) (zero : Content), ref.zeroContent ofName = .ok zero → P ref zero
  | .named name, zero, h => named name zero h
  | .inline fields, zero, h => by
    obtain ⟨zeros, hz, rfl⟩ := zeroContent_inline_eq_ok_iff.mp h
    exact inline fields zeros (fieldsZero_induct named inline fields zeros hz)

theorem fieldsZero_induct {P : Ref → Content → Prop}
    (named : ∀ name zero, ofName name = .ok zero → P (.named name) zero)
    (inline : ∀ fields zeros, List.Forall₂ (fun field zero => zero.1 = field.1 ∧
      P field.2 zero.2) fields zeros → P (.inline fields) (.record zeros)) :
    ∀ (fields : List (String × Ref)) (zeros : List (String × Content)),
      fieldsZero ofName fields = .ok zeros →
        List.Forall₂ (fun field zero => zero.1 = field.1 ∧ P field.2 zero.2) fields zeros
  | [], zeros, h => by
    cases pure_eq_ok_iff.mp h
    exact .nil
  | (name, ref) :: rest, zeros, h => by
    obtain ⟨zero, hz, h⟩ := bind_eq_ok_iff.mp h
    obtain ⟨others, ho, h⟩ := bind_eq_ok_iff.mp h
    cases pure_eq_ok_iff.mp h
    exact .cons ⟨rfl, zeroContent_induct named inline ref zero hz⟩
      (fieldsZero_induct named inline rest others ho)
end

/-- More zero values of names give no other zero values of references. -/
theorem zeroContent_mono {more : String → Except GenerationError Content}
    (hm : ∀ name zero, ofName name = .ok zero → more name = .ok zero) {ref : Ref} {zero : Content}
    (h : ref.zeroContent ofName = .ok zero) : ref.zeroContent more = .ok zero := by
  refine zeroContent_induct (P := fun ref zero => ref.zeroContent more = .ok zero) hm ?_ ref zero h
  intro fields zeros hf
  exact zeroContent_inline_eq_ok_iff.mpr ⟨zeros, fieldsZero_eq_ok_iff.mpr hf, rfl⟩

mutual
/-- A reference has a zero value when the names it mentions have. -/
theorem exists_zeroContent (context : String) : ∀ (ref : Ref),
    (∀ mention ∈ ref.mentions context, ∃ zero, ofName mention.name = .ok zero) →
      ∃ zero, ref.zeroContent ofName = .ok zero
  | .named name, h => h ⟨name, context⟩ (by simp [mentions])
  | .inline fields, h => by
    obtain ⟨zeros, hz⟩ := exists_fieldsZero context fields h
    exact ⟨.record zeros, zeroContent_inline_eq_ok_iff.mpr ⟨zeros, hz, rfl⟩⟩

theorem exists_fieldsZero (owner : String) : ∀ (fields : List (String × Ref)),
    (∀ mention ∈ fieldMentions owner fields, ∃ zero, ofName mention.name = .ok zero) →
      ∃ zeros, fieldsZero ofName fields = .ok zeros
  | [], _ => ⟨[], rfl⟩
  | (name, ref) :: rest, h => by
    rw [fieldMentions] at h
    obtain ⟨zero, hz⟩ := exists_zeroContent _ ref fun m hm => h m (List.mem_append_left _ hm)
    obtain ⟨zeros, hs⟩ := exists_fieldsZero owner rest fun m hm => h m (List.mem_append_right _ hm)
    exact ⟨(name, zero) :: zeros, by rw [fieldsZero, hz, hs]; rfl⟩
end

end Ref

namespace Table

variable {table : Table} {language : Code.Language}

/-- The zero value of a name is that of what the name leads to. -/
theorem zeroWithin_succ_eq_ok_iff {depth : Nat} {name : String} {zero : Content} :
    table.zeroWithin (depth + 1) name = .ok zero ↔
      ∃ canonical shape, table.resolve name "zero value" = .ok (canonical, shape) ∧
        shape.HasZero (fun ref zero => ref.zeroContent (table.zeroWithin depth) = .ok zero)
          zero := by
  rw [zeroWithin, bind_eq_ok_iff]
  constructor
  · rintro ⟨⟨canonical, shape⟩, hr, h⟩
    refine ⟨canonical, shape, lifted_eq_ok_iff.mp hr, ?_⟩
    cases shape with
    | builtin type =>
      cases pure_eq_ok_iff.mp h
      exact .builtin
    | dynamic element =>
      cases pure_eq_ok_iff.mp h
      exact .dynamic
    | fixed length element =>
      cases length with
      | zero =>
        cases pure_eq_ok_iff.mp h
        exact .empty
      | succ length =>
        obtain ⟨zero, hz, h⟩ := bind_eq_ok_iff.mp h
        cases pure_eq_ok_iff.mp h
        exact .fixed (Nat.succ_ne_zero length) hz
    | record fields =>
      obtain ⟨zeros, hz, h⟩ := bind_eq_ok_iff.mp h
      cases pure_eq_ok_iff.mp h
      exact .record (Ref.zeroContent_inline_eq_ok_iff.mpr ⟨zeros, hz, rfl⟩)
  · rintro ⟨canonical, shape, hr, h⟩
    refine ⟨(canonical, shape), lifted_eq_ok_iff.mpr hr, ?_⟩
    cases h with
    | builtin | dynamic | empty => rfl
    | @fixed length element zero hl h =>
      cases length with
      | zero => exact absurd rfl hl
      | succ length =>
        exact bind_eq_ok_iff.mpr ⟨zero, h, rfl⟩
    | record h =>
      obtain ⟨zeros, hz, rfl⟩ := Ref.zeroContent_inline_eq_ok_iff.mp h
      exact bind_eq_ok_iff.mpr ⟨zeros, hz, rfl⟩

/-- A greater depth gives no other zero value. -/
theorem zeroWithin_mono {depth deeper : Nat} {name : String} {zero : Content}
    (hle : depth ≤ deeper) (h : table.zeroWithin depth name = .ok zero) :
    table.zeroWithin deeper name = .ok zero := by
  induction depth generalizing deeper name zero with
  | zero => exact absurd h throw_ne_ok
  | succ depth ih =>
    obtain ⟨further, rfl⟩ : ∃ further, deeper = further + 1 := ⟨deeper - 1, by omega⟩
    obtain ⟨canonical, shape, hr, hz⟩ := zeroWithin_succ_eq_ok_iff.mp h
    refine zeroWithin_succ_eq_ok_iff.mpr ⟨canonical, shape, hr, hz.imp fun ref zero hz => ?_⟩
    exact Ref.zeroContent_mono (fun name zero hz => ih (by omega) hz) hz

/-- The zero value of a reference, however deep it is. -/
def IsZero (table : Table) (ref : Ref) (zero : Content) : Prop :=
  ∃ depth, ref.zeroContent (table.zeroWithin depth) = .ok zero

theorem IsZero.unique {ref : Ref} {zero other : Content} (h : table.IsZero ref zero)
    (h' : table.IsZero ref other) : zero = other := by
  obtain ⟨d, h⟩ := h
  obtain ⟨e, h'⟩ := h'
  have hd := Ref.zeroContent_mono (fun _ _ hz => zeroWithin_mono (Nat.le_max_left d e) hz) h
  rw [Ref.zeroContent_mono (fun _ _ hz => zeroWithin_mono (Nat.le_max_right d e) hz) h'] at hd
  exact (Except.ok.inj hd).symm

theorem isZero_of_zeroContent {ref : Ref} {zero : Content} (h : table.zeroContent ref = .ok zero) :
    table.IsZero ref zero :=
  ⟨_, h⟩

/-- The zero value of a name is that of what the name leads to. -/
theorem IsZero.named {name : String} {zero : Content} (h : table.IsZero (.named name) zero) :
    ∃ canonical shape, table.LeadsTo name canonical shape ∧ shape.HasZero table.IsZero zero := by
  obtain ⟨depth, h⟩ := h
  cases depth with
  | zero => exact absurd h throw_ne_ok
  | succ depth =>
    obtain ⟨canonical, shape, hr, hz⟩ := zeroWithin_succ_eq_ok_iff.mp h
    exact ⟨canonical, shape, leadsTo_of_resolve hr, hz.imp fun ref zero hz => ⟨depth, hz⟩⟩

/-- A name has the zero value of its canonical name. -/
theorem IsZero.canonical {name canonical : String} {shape : Shape} {zero : Content}
    (h : table.IsZero (.named name) zero) (hl : table.LeadsTo name canonical shape) :
    table.IsZero (.named canonical) zero := by
  obtain ⟨depth, h⟩ := h
  cases depth with
  | zero => exact absurd h throw_ne_ok
  | succ depth =>
    obtain ⟨_, _, hr, hz⟩ := zeroWithin_succ_eq_ok_iff.mp h
    obtain ⟨rfl, rfl⟩ := hl.unique (leadsTo_of_resolve hr)
    exact ⟨depth + 1, zeroWithin_succ_eq_ok_iff.mpr ⟨_, _, resolve_of_get? _ hl.get?, hz⟩⟩

/-- The zero value of an anonymous record is that of its fields, in order. -/
theorem IsZero.inline {fields : List (String × Ref)} {zero : Content}
    (h : table.IsZero (.inline fields) zero) :
    ∃ zeros, zero = .record zeros ∧ List.Forall₂ (fun field zero => zero.1 = field.1 ∧
      table.IsZero field.2 zero.2) fields zeros := by
  obtain ⟨depth, h⟩ := h
  obtain ⟨zeros, hz, rfl⟩ := Ref.zeroContent_inline_eq_ok_iff.mp h
  refine ⟨zeros, rfl, (Ref.fieldsZero_eq_ok_iff.mp hz).imp fun field zero hf => ?_⟩
  exact ⟨hf.1, depth, hf.2⟩

/-- What holds of the zero value of a type when it holds of those in it, and of a record when it
holds of its fields, holds of all zero values. -/
theorem IsZero.induct {P : Ref → Content → Prop}
    (named : ∀ name canonical shape zero, table.LeadsTo name canonical shape →
      shape.HasZero P zero → P (.named name) zero)
    (inline : ∀ fields zeros, List.Forall₂ (fun field zero => zero.1 = field.1 ∧
      P field.2 zero.2) fields zeros → P (.inline fields) (.record zeros))
    {ref : Ref} {zero : Content} (h : table.IsZero ref zero) : P ref zero := by
  obtain ⟨depth, h⟩ := h
  induction depth generalizing ref zero with
  | zero => exact Ref.zeroContent_induct (fun _ _ hz => absurd hz throw_ne_ok) inline ref zero h
  | succ depth ih =>
    refine Ref.zeroContent_induct (fun name zero hz => ?_) inline ref zero h
    obtain ⟨canonical, shape, hr, hz⟩ := zeroWithin_succ_eq_ok_iff.mp hz
    exact named name canonical shape zero (leadsTo_of_resolve hr) (hz.imp fun ref zero hz => ih hz)

/-- Only types of the table have zero values. -/
theorem IsZero.mentions {ref : Ref} {zero : Content} (h : table.IsZero ref zero) :
    ∀ context, ∀ mention ∈ ref.mentions context, mention.name ∈ table.names := by
  refine h.induct (P := fun ref _ => ∀ context, ∀ mention ∈ ref.mentions context,
    mention.name ∈ table.names) ?_ ?_
  · intro name canonical shape zero hl _ context mention hm
    rw [Ref.mentions, List.mem_singleton] at hm
    rw [hm]
    exact hl.mem_names
  · intro fields zeros hf context mention hm
    rw [Ref.mentions, Ref.fieldMentions_eq_flatMap] at hm
    obtain ⟨field, hfield, hm⟩ := List.mem_flatMap.mp hm
    obtain ⟨_, _, _, h⟩ := exists_of_mem_left hf hfield
    exact h _ mention hm

/-! ## Every type of a sound table has a zero value -/

/-- The types in a list of layers have zero values no deeper than the list is long. -/
theorem Layered.exists_zeroWithin {names : List String} (h : table.Layered names)
    (hsize : names.length ≤ table.size) {name : String} (hm : name ∈ names) :
    ∃ zero, table.zeroWithin names.length name = .ok zero := by
  induction h generalizing name with
  | nil => exact absurd hm List.not_mem_nil
  | @cons first type rest hg hn hc hr ih =>
    rw [List.length_cons] at hsize ⊢
    have hrest : ∀ n ∈ rest, ∃ zero, table.zeroWithin rest.length n = .ok zero :=
      fun n hn => ih (by omega) hn
    rcases List.mem_cons.mp hm with rfl | hm
    · obtain ⟨canonical, shape, hresolve, hheld⟩ :=
        Layered.resolve (.cons hg hn hc hr) "zero value" (by omega)
      -- what the first type holds in place stands further down
      have hparts : ∀ (context : String) (ref : Ref), (∀ mention ∈ ref.mentions context,
          mention.name ∈ (Definition.type shape).containedNames canonical) →
          ∃ zero, ref.zeroContent (table.zeroWithin rest.length) = .ok zero :=
        fun context ref hmention => Ref.exists_zeroContent context ref fun mention hm =>
          hrest _ (hheld _ (hmention mention hm))
      have hzero : ∃ zero, shape.HasZero
          (fun ref zero => ref.zeroContent (table.zeroWithin rest.length) = .ok zero) zero := by
        cases shape with
        | builtin type => exact ⟨_, .builtin⟩
        | dynamic element => exact ⟨_, .dynamic⟩
        | fixed length element =>
          by_cases hl : length = 0
          · subst hl
            exact ⟨_, .empty⟩
          · obtain ⟨zero, hz⟩ := hparts (elementContext canonical) element fun mention hm =>
              List.mem_map.mpr ⟨mention, hm, rfl⟩
            exact ⟨_, .fixed hl hz⟩
        | record fields =>
          obtain ⟨zero, hz⟩ := hparts canonical (.inline fields) fun mention hm =>
            List.mem_map.mpr ⟨mention, hm, rfl⟩
          exact ⟨_, .record hz⟩
      obtain ⟨zero, hz⟩ := hzero
      exact ⟨zero, zeroWithin_succ_eq_ok_iff.mpr ⟨canonical, shape, hresolve, hz⟩⟩
    · obtain ⟨zero, hz⟩ := hrest name hm
      exact ⟨zero, zeroWithin_mono (Nat.le_succ _) hz⟩

/-- A reference to types of a sound table has a zero value. -/
theorem exists_zeroContent (hv : table.validate language = .ok ()) {context : String} {ref : Ref}
    (hm : ∀ mention ∈ ref.mentions context, mention.name ∈ table.names) :
    ∃ zero, table.zeroContent ref = .ok zero := by
  obtain ⟨names, hl, hall, hlen⟩ := layered_of_validate hv
  refine Ref.exists_zeroContent context ref fun mention hmention => ?_
  obtain ⟨zero, hz⟩ := hl.exists_zeroWithin hlen ((hall _).mpr (hm mention hmention))
  exact ⟨zero, zeroWithin_mono (by omega) hz⟩

theorem exists_zeroContent_named (hv : table.validate language = .ok ()) {name : String}
    (hn : name ∈ table.names) : ∃ zero, table.zeroContent (.named name) = .ok zero := by
  have hm : ∀ mention ∈ (Ref.named name).mentions "", mention.name ∈ table.names := by
    intro mention hm
    rw [Ref.mentions, List.mem_singleton] at hm
    rwa [hm]
  exact exists_zeroContent hv hm

/-- In a sound table the bound on the depth is enough. -/
theorem zeroContent_of_isZero (hv : table.validate language = .ok ()) {ref : Ref} {zero : Content}
    (h : table.IsZero ref zero) : table.zeroContent ref = .ok zero := by
  obtain ⟨found, hf⟩ := exists_zeroContent hv (h.mentions "")
  rw [hf, (isZero_of_zeroContent hf).unique h]

end Table

end CopySynth
