import CopySynth.Proofs.Aliases
import CopySynth.Proofs.Contents
import CopySynth.Proofs.Memory

/-!
# Values of a type

`Shaped` says that a value has the shape of a type. A value whose type is a value type has no cells.
-/

namespace CopySynth

namespace Table

/-- A value has the shape of a type. Behind an interface stands a value of an admitted type that has
the shape of that type. -/
inductive Shaped (table : Table) (heap : Heap) (admits : String → Prop) : Ref → Value → Prop
  | aliased {name target value} (hg : table.get? name = some (.aliasOf target))
      (hs : Shaped table heap admits (.named target) value) :
      Shaped table heap admits (.named name) value
  | scalar {name type value} (hg : table.get? name = some (.type (.builtin type)))
      (hm : type.marker = .value ∨ type.marker = .setLike) :
      Shaped table heap admits (.named name) (.scalar value)
  | external {name type address} (hg : table.get? name = some (.type (.builtin type)))
      (hm : type.marker = .externalSequence) : Shaped table heap admits (.named name) (.seq address)
  | unset {name type} (hg : table.get? name = some (.type (.builtin type)))
      (hm : type.marker = .capability) : Shaped table heap admits (.named name) .unset
  | slot {name type concrete value} (hg : table.get? name = some (.type (.builtin type)))
      (hm : type.marker = .capability) (ha : admits concrete)
      (hs : Shaped table heap admits (.named concrete) value) :
      Shaped table heap admits (.named name) (.slot concrete value)
  | fixed {name length element items} (hg : table.get? name = some (.type (.fixed length element)))
      (hl : items.length = length) (hs : ∀ item ∈ items, Shaped table heap admits element item) :
      Shaped table heap admits (.named name) (.array items)
  | dynamic {name element address} (hg : table.get? name = some (.type (.dynamic element)))
      (hs : ∀ item ∈ heap.read address, Shaped table heap admits element item) :
      Shaped table heap admits (.named name) (.seq address)
  | record {name declared value} (hg : table.get? name = some (.type (.record declared)))
      (hs : Shaped table heap admits (.inline declared) value) :
      Shaped table heap admits (.named name) value
  | inline {declared fields} (hn : (Fields.names fields).Perm (Fields.names declared))
      (hs : ∀ name ref part, (name, ref) ∈ declared → (name, part) ∈ fields →
        Shaped table heap admits ref part) :
      Shaped table heap admits (.inline declared) (.record fields)

/-- A value has the shape that the definition of its type asks for. -/
def ShapedBy (table : Table) (heap : Heap) (admits : String → Prop) : Definition → Value → Prop
  | .aliasOf target, value => table.Shaped heap admits (.named target) value
  | .type (.builtin type), value =>
    (∃ x, value = .scalar x ∧ (type.marker = .value ∨ type.marker = .setLike)) ∨
      (∃ address, value = .seq address ∧ type.marker = .externalSequence) ∨
      type.marker = .capability ∧ (value = .unset ∨ ∃ concrete inner, value = .slot concrete inner ∧
        admits concrete ∧ table.Shaped heap admits (.named concrete) inner)
  | .type (.fixed length element), value => ∃ items, value = .array items ∧
      items.length = length ∧ ∀ item ∈ items, table.Shaped heap admits element item
  | .type (.dynamic element), value => ∃ address, value = .seq address ∧
      ∀ item ∈ heap.read address, table.Shaped heap admits element item
  | .type (.record declared), value => table.Shaped heap admits (.inline declared) value

variable {table : Table} {heap : Heap} {admits : String → Prop}

theorem Shaped.definition {name : String} {type : Definition} {value : Value}
    (h : table.Shaped heap admits (.named name) value) (hg : table.get? name = some type) :
    table.ShapedBy heap admits type value := by
  cases h with
  | aliased hg' hs | record hg' hs =>
    cases hg.symm.trans hg'
    exact hs
  | scalar hg' hm =>
    cases hg.symm.trans hg'
    exact .inl ⟨_, rfl, hm⟩
  | external hg' hm =>
    cases hg.symm.trans hg'
    exact .inr (.inl ⟨_, rfl, hm⟩)
  | unset hg' hm =>
    cases hg.symm.trans hg'
    exact .inr (.inr ⟨hm, .inl rfl⟩)
  | slot hg' hm ha hs =>
    cases hg.symm.trans hg'
    exact .inr (.inr ⟨hm, .inr ⟨_, _, rfl, ha, hs⟩⟩)
  | fixed hg' hl hs =>
    cases hg.symm.trans hg'
    exact ⟨_, rfl, hl, hs⟩
  | dynamic hg' hs =>
    cases hg.symm.trans hg'
    exact ⟨_, rfl, hs⟩

/-- A value has the shape of what an alias leads to. -/
theorem Shaped.canonical {name canonical : String} {shape : Shape} {value : Value}
    (hl : table.LeadsTo name canonical shape) (h : table.Shaped heap admits (.named name) value) :
    table.Shaped heap admits (.named canonical) value := by
  induction hl with
  | type hg => exact h
  | aliased hg _ ih => exact ih (h.definition hg)

/-- All types that a reference mentions are value types. -/
def PlainRef (table : Table) (ref : Ref) : Prop :=
  ∀ context, ∀ mention ∈ ref.mentions context, table.Plain mention.name

theorem plainRef_of_mentions {ref : Ref} {context : String}
    (h : ∀ mention ∈ ref.mentions context, table.Plain mention.name) : table.PlainRef ref := by
  intro other
  rw [ref.forall_mentions_iff table.Plain] at h ⊢
  exact h

theorem plainRef_of_isValue {ref : Ref} {context : String}
    (h : table.isValue ref context = .ok true) : table.PlainRef ref :=
  plainRef_of_mentions (plain_of_isValue h)

/-- What a value type is made of. -/
theorem PlainRef.cases {name : String} {type : Definition} (h : table.PlainRef (.named name))
    (hg : table.get? name = some type) :
    type.ownsStorage = false ∧ ∀ mention ∈ type.contained name, table.Plain mention.name := by
  exact (h "" ⟨name, ""⟩ (by simp [Ref.mentions])).of_get? hg

theorem PlainRef.field {declared : List (String × Ref)} (h : table.PlainRef (.inline declared))
    {name : String} {ref : Ref} (hm : (name, ref) ∈ declared) : table.PlainRef ref := by
  have hheld : ∀ mention ∈ ref.mentions (fieldContext name ""), table.Plain mention.name := by
    intro mention hmention
    refine h "" mention ?_
    rw [Ref.mentions, Ref.fieldMentions_eq_flatMap]
    exact List.mem_flatMap.mpr ⟨(name, ref), hm, hmention⟩
  exact plainRef_of_mentions hheld

/-- A value has no cells when all types that its type mentions in place are value types. -/
theorem Shaped.storageWithin_eq_nil {ref : Ref} {value : Value}
    (h : table.Shaped heap admits ref value) (hp : table.PlainRef ref) (other : Heap)
    (depth : Nat) : other.storageWithin depth value = [] := by
  induction h generalizing depth with
  | @aliased name target _ hg _ ih =>
    have hc : ∀ mention ∈ (Ref.named target).mentions (aliasContext name),
        table.Plain mention.name := (hp.cases hg).2
    exact ih (plainRef_of_mentions hc) depth
  | scalar | unset => cases depth <;> simp [Heap.storageWithin, Value.address?, Heap.parts]
  | external hg hm =>
    have ho := (hp.cases hg).1
    simp [Definition.ownsStorage, Marker.ownsStorage, hm] at ho
  | slot hg hm =>
    have ho := (hp.cases hg).1
    simp [Definition.ownsStorage, Marker.ownsStorage, hm] at ho
  | dynamic hg => cases (hp.cases hg).1
  | @fixed name _ element _ hg _ _ ih =>
    have hc : ∀ mention ∈ element.mentions (elementContext name), table.Plain mention.name :=
      (hp.cases hg).2
    cases depth with
    | zero => rfl
    | succ depth =>
      refine List.flatMap_eq_nil_iff.mpr fun item hi => ?_
      exact ih item hi (plainRef_of_mentions hc) depth
  | @record name declared _ hg _ ih =>
    have hc : ∀ mention ∈ (Ref.inline declared).mentions name, table.Plain mention.name :=
      (hp.cases hg).2
    exact ih (plainRef_of_mentions hc) depth
  | inline hn _ ih =>
    cases depth with
    | zero => rfl
    | succ depth =>
      refine List.flatMap_eq_nil_iff.mpr fun part hpart => ?_
      obtain ⟨⟨name, part⟩, hf, rfl⟩ := List.mem_map.mp hpart
      obtain ⟨⟨name, ref⟩, hd, rfl⟩ :=
        List.mem_map.mp (hn.mem_iff.mp (List.mem_map.mpr ⟨_, hf, rfl⟩))
      exact ih name ref part hd hf (hp.field hd) depth

end Table

end CopySynth
