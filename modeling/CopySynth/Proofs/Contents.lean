import CopySynth.Proofs.Lists
import CopySynth.Value.Heap
import Mathlib.Algebra.BigOperators.Intervals
import Mathlib.Algebra.Order.BigOperators.Group.Finset

/-!
# Finite values

A value is finite when its content shows within some depth. `parts` says what is one step down in a
value, so that a fact about all values needs one case. The depth a content is asked for is enough:
a finite value never comes back to a cell on its way down.
-/

namespace CopySynth

/-- The address of a growable sequence. -/
def Value.address? : Value → Option Nat
  | .seq address => some address
  | _ => none

/-- The content of a value, put together from the contents of its parts. -/
def Value.assemble : Value → List Content → Content
  | .scalar value, _ => .scalar value
  | .record fields, contents => .record ((Fields.names fields).zip contents)
  | .array _, contents => .array contents
  | .seq _, contents => .seq contents
  | .unset, _ => .unset
  | .slot concrete _, contents => .slot concrete (contents.headD .unset)

namespace Heap

variable {heap other : Heap} {depth deeper : Nat} {value : Value} {content : Content}

/-- The parts of a value, one step down. -/
def parts (heap : Heap) : Value → List Value
  | .record fields => fields.map Prod.snd
  | .array items => items
  | .seq address => heap.read address
  | .slot _ value => [value]
  | .scalar _ | .unset => []

/-- A value has this content, however deep it is. -/
def Stores (heap : Heap) (value : Value) (content : Content) : Prop :=
  ∃ depth, heap.contentWithin depth value = some content

/-- The cells of the growable sequences in a value down to this depth, each as often as it is
met. -/
def storageWithin (heap : Heap) : Nat → Value → List Nat
  | 0, _ => []
  | depth + 1, value =>
    value.address?.toList ++ (heap.parts value).flatMap (heap.storageWithin depth)

/-- The cells of the growable sequences in a value, each as often as it is met. -/
def storage (heap : Heap) (value : Value) : List Nat :=
  heap.storageWithin (heap.depthBound value) value

/-- Fields that agree with others on their values, under the names of these. -/
theorem forall₂_fields_iff {P : Value → Content → Prop} {fields : Fields Value}
    {contents : Fields Content} :
    List.Forall₂ (fun field content => content.1 = field.1 ∧ P field.2 content.2) fields contents ↔
      ∃ inner, List.Forall₂ P (fields.map Prod.snd) inner ∧
        contents = (Fields.names fields).zip inner := by
  induction fields generalizing contents with
  | nil => simp
  | cons field fields ih =>
    rw [List.forall₂_cons_left_iff]
    constructor
    · rintro ⟨⟨name, c⟩, rest, ⟨rfl, hc⟩, hr, rfl⟩
      obtain ⟨inner, hi, rfl⟩ := ih.mp hr
      exact ⟨c :: inner, .cons hc hi, rfl⟩
    · rintro ⟨_, hall, rfl⟩
      obtain ⟨c, inner, hc, hi, rfl⟩ := List.forall₂_cons_left_iff.mp hall
      exact ⟨(field.1, c), _, ⟨rfl, hc⟩, ih.mpr ⟨inner, hi, rfl⟩, rfl⟩

/-- The content of a value is that of its parts, put together. -/
theorem contentWithin_succ_iff :
    heap.contentWithin (depth + 1) value = some content ↔
      ∃ contents, List.Forall₂ (fun part content => heap.contentWithin depth part = some content)
        (heap.parts value) contents ∧ content = value.assemble contents := by
  cases value with
  | scalar x => simp [contentWithin, parts, Value.assemble, eq_comm]
  | unset => simp [contentWithin, parts, Value.assemble, eq_comm]
  | record fields =>
    simp only [contentWithin, Option.bind_eq_bind, Option.bind_eq_some_iff, mapM_eq_some_iff,
      Option.pure_def, Option.some.injEq, parts, Value.assemble]
    constructor
    · rintro ⟨contents, hc, rfl⟩
      have hp := forall₂_fields_iff
        (P := fun part content => heap.contentWithin depth part = some content).mp
        (hc.imp fun field content hf => by
          obtain ⟨inner, hi, rfl⟩ := hf
          exact ⟨rfl, hi⟩)
      obtain ⟨inner, hi, rfl⟩ := hp
      exact ⟨inner, hi, rfl⟩
    · rintro ⟨inner, hi, rfl⟩
      refine ⟨_, (forall₂_fields_iff.mpr ⟨inner, hi, rfl⟩).imp fun field content hf => ?_, rfl⟩
      exact ⟨content.2, hf.2, by rw [← hf.1]⟩
  | array items =>
    simp only [contentWithin, Option.bind_eq_bind, Option.bind_eq_some_iff, mapM_eq_some_iff,
      Option.pure_def, Option.some.injEq, parts, Value.assemble]
    exact exists_congr fun _ => and_congr_right fun _ => eq_comm
  | seq address =>
    simp only [contentWithin, Option.bind_eq_bind, Option.bind_eq_some_iff, mapM_eq_some_iff,
      Option.pure_def, Option.some.injEq, parts, Value.assemble]
    exact exists_congr fun _ => and_congr_right fun _ => eq_comm
  | slot concrete value =>
    simp only [contentWithin, Option.bind_eq_bind, Option.bind_eq_some_iff, Option.pure_def,
      Option.some.injEq, parts, Value.assemble]
    constructor
    · rintro ⟨inner, hi, rfl⟩
      exact ⟨[inner], .cons hi .nil, rfl⟩
    · rintro ⟨_, hall, rfl⟩
      obtain ⟨inner, _, hi, _, rfl⟩ := List.forall₂_cons_left_iff.mp hall
      exact ⟨inner, hi, rfl⟩

/-- A content that shows within a depth shows within any greater one. -/
theorem contentWithin_mono (hle : depth ≤ deeper)
    (h : heap.contentWithin depth value = some content) :
    heap.contentWithin deeper value = some content := by
  induction depth generalizing deeper value content with
  | zero => simp [contentWithin] at h
  | succ depth ih =>
    obtain ⟨further, rfl⟩ : ∃ further, deeper = further + 1 := ⟨deeper - 1, by omega⟩
    obtain ⟨contents, hc, rfl⟩ := contentWithin_succ_iff.mp h
    exact contentWithin_succ_iff.mpr ⟨contents, hc.imp fun _ _ hp => ih (by omega) hp, rfl⟩

theorem Stores.unique {others : Content} (h : heap.Stores value content)
    (h' : heap.Stores value others) : content = others := by
  obtain ⟨d, h⟩ := h
  obtain ⟨e, h'⟩ := h'
  have hd := contentWithin_mono (Nat.le_max_left d e) h
  rw [contentWithin_mono (Nat.le_max_right d e) h'] at hd
  exact (Option.some.inj hd).symm

/-- All cells of a finite value are met within the depth of its content. -/
theorem storageWithin_eq (hle : depth ≤ deeper)
    (h : heap.contentWithin depth value = some content) :
    heap.storageWithin deeper value = heap.storageWithin depth value := by
  induction depth generalizing deeper value content with
  | zero => simp [contentWithin] at h
  | succ depth ih =>
    obtain ⟨further, rfl⟩ : ∃ further, deeper = further + 1 := ⟨deeper - 1, by omega⟩
    obtain ⟨contents, hc, rfl⟩ := contentWithin_succ_iff.mp h
    rw [storageWithin, storageWithin]
    congr 1
    refine List.flatMap_congr fun part hp => ?_
    obtain ⟨inner, _, hi⟩ := exists_of_mem_left hc hp
    exact ih (by omega) hi

/-- The cell of a value is one of its cells. -/
theorem mem_storageWithin_of_address {address : Nat} (h : address ∈ value.address?) :
    address ∈ heap.storageWithin (depth + 1) value :=
  List.mem_append_left _ (Option.mem_toList.mpr h)

/-- The cells of a part are cells of the value. -/
theorem mem_storageWithin_of_part {part : Value} {address : Nat} (hp : part ∈ heap.parts value)
    (h : address ∈ heap.storageWithin depth part) :
    address ∈ heap.storageWithin (depth + 1) value :=
  List.mem_append_right _ (List.mem_flatMap.mpr ⟨part, hp, h⟩)

/-- The parts of a value depend on its own cell alone. -/
theorem parts_congr (h : ∀ a ∈ value.address?, other.read a = heap.read a) :
    other.parts value = heap.parts value := by
  cases value with
  | seq address => exact h address rfl
  | scalar | record | array | unset | slot => rfl

/-- The cells of a value depend on these cells alone. -/
theorem storageWithin_congr (h : ∀ a ∈ heap.storageWithin depth value, other.read a = heap.read a) :
    other.storageWithin depth value = heap.storageWithin depth value := by
  induction depth generalizing value with
  | zero => rfl
  | succ depth ih =>
    have hparts : other.parts value = heap.parts value :=
      parts_congr fun a ha => h a (mem_storageWithin_of_address ha)
    rw [storageWithin, storageWithin, hparts]
    congr 1
    exact List.flatMap_congr fun part hp => ih fun a ha => h a (mem_storageWithin_of_part hp ha)

/-- The content of a value depends on its cells alone. -/
theorem contentWithin_congr (h : ∀ a ∈ heap.storageWithin depth value, other.read a = heap.read a)
    (hc : heap.contentWithin depth value = some content) :
    other.contentWithin depth value = some content := by
  induction depth generalizing value content with
  | zero => simp [contentWithin] at hc
  | succ depth ih =>
    have hparts : other.parts value = heap.parts value :=
      parts_congr fun a ha => h a (mem_storageWithin_of_address ha)
    obtain ⟨contents, hall, rfl⟩ := contentWithin_succ_iff.mp hc
    refine contentWithin_succ_iff.mpr ⟨contents, ?_, rfl⟩
    rw [hparts]
    exact forall₂_imp_of_mem hall fun part hp inner _ hi =>
      ih (fun a ha => h a (mem_storageWithin_of_part hp ha)) hi

/-- A cell in a finite value is itself finite. -/
theorem exists_content_of_mem {address : Nat} (h : heap.contentWithin depth value = some content)
    (ha : address ∈ heap.storageWithin depth value) :
    ∃ inner, heap.contentWithin depth (.seq address) = some inner := by
  induction depth generalizing value content with
  | zero => simp [contentWithin] at h
  | succ depth ih =>
    rw [storageWithin] at ha
    rcases List.mem_append.mp ha with ha | ha
    · cases value with
      | seq => exact ⟨content, by rwa [Option.some.inj (Option.mem_toList.mp ha).symm]⟩
      | scalar | record | array | unset | slot => simp [Value.address?] at ha
    · obtain ⟨part, hp, ha⟩ := List.mem_flatMap.mp ha
      obtain ⟨contents, hall, rfl⟩ := contentWithin_succ_iff.mp h
      obtain ⟨inner, _, hi⟩ := exists_of_mem_left hall hp
      obtain ⟨found, hf⟩ := ih hi ha
      exact ⟨found, contentWithin_mono (Nat.le_succ depth) hf⟩

/-- Some depth shows the elements of a finite sequence without coming back to its cell. -/
theorem exists_elements {address : Nat}
    (h : heap.contentWithin depth (.seq address) = some content) :
    ∃ before contents, before < depth ∧ content = .seq contents ∧
      List.Forall₂ (fun part content => heap.contentWithin before part = some content)
        (heap.read address) contents ∧
      ∀ part ∈ heap.read address, address ∉ heap.storageWithin before part := by
  induction depth with
  | zero => simp [contentWithin] at h
  | succ depth ih =>
    obtain ⟨contents, hall, rfl⟩ := contentWithin_succ_iff.mp h
    by_cases hback : ∃ part ∈ heap.read address, address ∈ heap.storageWithin depth part
    · obtain ⟨part, hp, ha⟩ := hback
      obtain ⟨inner, _, hi⟩ := exists_of_mem_left hall hp
      obtain ⟨found, hf⟩ := exists_content_of_mem hi ha
      obtain rfl := Stores.unique ⟨_, hf⟩ ⟨_, h⟩
      obtain ⟨before, others, hlt, hrest⟩ := ih hf
      exact ⟨before, others, by omega, hrest⟩
    · exact ⟨depth, contents, by omega, rfl, hall, fun part hp ha => hback ⟨part, hp, ha⟩⟩

/-! ## How deep a content can be -/

theorem weight_le_itemsWeight {items : List Value} {part : Value} (h : part ∈ items) :
    part.weight ≤ Value.itemsWeight items := by
  induction items with
  | nil => simp at h
  | cons item items ih =>
    rw [Value.itemsWeight]
    rcases List.mem_cons.mp h with rfl | h
    · omega
    · have := ih h
      omega

theorem weight_le_fieldsWeight {fields : List (String × Value)} {part : Value}
    (h : part ∈ fields.map Prod.snd) : part.weight ≤ Value.fieldsWeight fields := by
  induction fields with
  | nil => simp at h
  | cons field fields ih =>
    rw [Value.fieldsWeight]
    rcases List.mem_cons.mp h with rfl | h
    · omega
    · have := ih h
      omega

/-- Parts that are held in place weigh less than the whole. -/
theorem weight_part_lt (hv : value.address? = none) {part : Value} (h : part ∈ heap.parts value) :
    part.weight < value.weight := by
  cases value with
  | scalar | unset => simp [parts] at h
  | seq address => simp [Value.address?] at hv
  | record fields =>
    have := weight_le_fieldsWeight h
    rw [Value.weight]
    omega
  | array items =>
    have : part.weight ≤ Value.itemsWeight items := weight_le_itemsWeight h
    rw [Value.weight]
    omega
  | slot concrete inner =>
    cases List.mem_singleton.mp h
    rw [Value.weight]
    omega

/-- The number of parts in a cell, with the cell. -/
def cellWeight (heap : Heap) (address : Nat) : Nat := Value.itemsWeight (heap.read address) + 1

theorem weight_eq_sum (heap : Heap) :
    heap.weight = ∑ address ∈ Finset.range heap.size, heap.cellWeight address := by
  obtain ⟨⟨cells⟩⟩ := heap
  have hfold : ∀ (total : Nat) (cells : List (List Value)),
      cells.foldl (fun total items => total + Value.itemsWeight items + 1) total =
        total + ∑ address ∈ Finset.range cells.length,
          (Value.itemsWeight (cells[address]?.getD []) + 1) := by
    intro total cells
    induction cells generalizing total with
    | nil => simp
    | cons items cells ih =>
      rw [List.foldl_cons, ih, List.length_cons, Finset.sum_range_succ']
      simp only [List.getElem?_cons_succ, List.getElem?_cons_zero, Option.getD_some]
      omega
  simpa [weight, size, cellWeight, read] using hfold 0 cells

/-- A finite value whose cells with elements are among `cells` shows its content within the weight
of the value and of these cells. On its way down a value enters a cell at most once. -/
theorem contentWithin_of_cells (cells : Finset Nat)
    (h : heap.contentWithin depth value = some content)
    (hs : ∀ a ∈ heap.storageWithin depth value, a ∈ cells ∨ heap.read a = []) :
    heap.contentWithin (value.weight + ∑ a ∈ cells, heap.cellWeight a + 1) value =
      some content := by
  induction depth using Nat.strong_induction_on generalizing value content cells with
  | _ depth ih =>
    cases hv : value.address? with
    | none =>
      -- in place: each part weighs less, and the same cells remain
      obtain ⟨before, rfl⟩ : ∃ before, depth = before + 1 := by
        cases depth with
        | zero => simp [contentWithin] at h
        | succ before => exact ⟨before, rfl⟩
      obtain ⟨contents, hall, rfl⟩ := contentWithin_succ_iff.mp h
      refine contentWithin_succ_iff.mpr ⟨contents, ?_, rfl⟩
      refine forall₂_imp_of_mem hall fun part hp inner _ hi => ?_
      have hdeep := ih before (by omega) cells hi fun a ha => hs a (mem_storageWithin_of_part hp ha)
      have := weight_part_lt hv hp
      exact contentWithin_mono (by omega) hdeep
    | some address =>
      -- a cell with elements is met only now, so that it pays for its elements and leaves the set
      obtain rfl : value = .seq address := by
        cases value with
        | seq => exact congrArg _ (Option.some.inj hv)
        | scalar | record | array | unset | slot => simp [Value.address?] at hv
      obtain ⟨before, contents, hlt, rfl, hall, hback⟩ := exists_elements h
      refine contentWithin_succ_iff.mpr ⟨contents, ?_, rfl⟩
      refine forall₂_imp_of_mem hall fun part hp inner _ hi => ?_
      have hshown : heap.contentWithin (before + 1) (.seq address) = some (.seq contents) :=
        contentWithin_succ_iff.mpr ⟨contents, hall, rfl⟩
      rw [storageWithin_eq hlt hshown] at hs
      have hcell : address ∈ cells := by
        refine (hs address (mem_storageWithin_of_address rfl)).resolve_right fun hempty => ?_
        rw [parts, hempty] at hp
        simp at hp
      have hdeep := ih before hlt (cells.erase address) hi fun a ha => by
        refine (hs a (mem_storageWithin_of_part hp ha)).imp_left fun hc =>
          Finset.mem_erase.mpr ⟨?_, hc⟩
        rintro rfl
        exact hback part hp ha
      have hsum := Finset.add_sum_erase cells heap.cellWeight hcell
      have hweight : part.weight ≤ Value.itemsWeight (heap.read address) := weight_le_itemsWeight hp
      rw [cellWeight] at hsum
      exact contentWithin_mono (by rw [Value.weight]; omega) hdeep

theorem read_of_size_le {address : Nat} (h : heap.size ≤ address) : heap.read address = [] := by
  simp [read, Array.getElem?_eq_none h]

/-- Asking for a content shows it exactly when the value is finite. -/
theorem content?_eq_some_iff : heap.content? value = some content ↔ heap.Stores value content := by
  constructor
  · exact fun h => ⟨_, h⟩
  · rintro ⟨depth, h⟩
    have hdeep := contentWithin_of_cells (Finset.range heap.size) h fun a _ => by
      rcases Nat.lt_or_ge a heap.size with hlt | hge
      · exact .inl (Finset.mem_range.mpr hlt)
      · exact .inr (read_of_size_le hge)
    rw [← weight_eq_sum] at hdeep
    exact contentWithin_mono (by rw [depthBound]; omega) hdeep

/-- All cells of a finite value are met within the bound on its depth. -/
theorem storage_eq (h : heap.contentWithin depth value = some content) :
    heap.storage value = heap.storageWithin depth value := by
  have hc : heap.contentWithin (heap.depthBound value) value = some content :=
    content?_eq_some_iff.mpr ⟨depth, h⟩
  rw [storage, ← storageWithin_eq (Nat.le_max_left _ depth) hc,
    storageWithin_eq (Nat.le_max_right _ depth) h]

/-! ## Finite values, without depths -/

/-- Finitely many finite values show their contents within one depth. -/
theorem exists_depth {values : List Value} {contents : List Content}
    (h : List.Forall₂ heap.Stores values contents) :
    ∃ depth, List.Forall₂ (fun v c => heap.contentWithin depth v = some c) values contents := by
  induction h with
  | nil => exact ⟨0, .nil⟩
  | cons hv _ ih =>
    obtain ⟨d, hv⟩ := hv
    obtain ⟨e, ih⟩ := ih
    exact ⟨max d e, .cons (contentWithin_mono (Nat.le_max_left d e) hv)
      (ih.imp fun _ _ hp => contentWithin_mono (Nat.le_max_right d e) hp)⟩

/-- A value is finite when its parts are. -/
theorem stores_iff :
    heap.Stores value content ↔
      ∃ contents, List.Forall₂ heap.Stores (heap.parts value) contents ∧
        content = value.assemble contents := by
  constructor
  · rintro ⟨depth, h⟩
    obtain ⟨contents, hall, rfl⟩ := contentWithin_succ_iff.mp (contentWithin_mono (Nat.le_succ _) h)
    exact ⟨contents, hall.imp fun _ _ hp => ⟨depth, hp⟩, rfl⟩
  · rintro ⟨contents, hall, rfl⟩
    obtain ⟨depth, hall⟩ := exists_depth hall
    exact ⟨depth + 1, contentWithin_succ_iff.mpr ⟨contents, hall, rfl⟩⟩

/-- A record is finite when its fields are; their contents stand under the same names. -/
theorem stores_record_iff {fields : Fields Value} :
    heap.Stores (.record fields) content ↔
      ∃ contents, content = .record contents ∧ List.Forall₂ (fun field content =>
        content.1 = field.1 ∧ heap.Stores field.2 content.2) fields contents := by
  rw [stores_iff]
  constructor
  · rintro ⟨inner, hall, rfl⟩
    exact ⟨_, rfl, forall₂_fields_iff.mpr ⟨inner, hall, rfl⟩⟩
  · rintro ⟨contents, rfl, hall⟩
    obtain ⟨inner, hi, rfl⟩ := forall₂_fields_iff.mp hall
    exact ⟨inner, hi, rfl⟩

/-- The cells of a finite value are its own and those of its parts. -/
theorem Stores.storage_eq (h : heap.Stores value content) :
    heap.storage value = value.address?.toList ++ (heap.parts value).flatMap heap.storage := by
  obtain ⟨contents, hall, rfl⟩ := stores_iff.mp h
  obtain ⟨depth, hall⟩ := exists_depth hall
  have hc : heap.contentWithin (depth + 1) value = some (value.assemble contents) :=
    contentWithin_succ_iff.mpr ⟨contents, hall, rfl⟩
  rw [Heap.storage_eq hc, storageWithin]
  congr 1
  refine List.flatMap_congr fun part hp => ?_
  obtain ⟨inner, _, hi⟩ := exists_of_mem_left hall hp
  exact (Heap.storage_eq hi).symm

/-- The cell of a finite value is one of its cells. -/
theorem Stores.mem_storage_of_address (h : heap.Stores value content) {address : Nat}
    (ha : address ∈ value.address?) : address ∈ heap.storage value := by
  rw [h.storage_eq]
  exact List.mem_append_left _ (Option.mem_toList.mpr ha)

/-- The cells of a part of a finite value are cells of the value. -/
theorem Stores.mem_storage_of_part (h : heap.Stores value content) {part : Value} {address : Nat}
    (hp : part ∈ heap.parts value) (ha : address ∈ heap.storage part) :
    address ∈ heap.storage value := by
  rw [h.storage_eq]
  exact List.mem_append_right _ (List.mem_flatMap.mpr ⟨part, hp, ha⟩)

/-- A finite value is not affected by what happens outside its cells. -/
theorem Stores.congr (h : heap.Stores value content)
    (hs : ∀ a ∈ heap.storage value, other.read a = heap.read a) :
    other.Stores value content ∧ other.storage value = heap.storage value := by
  obtain ⟨depth, h⟩ := h
  rw [Heap.storage_eq h] at hs ⊢
  have hc := contentWithin_congr hs h
  exact ⟨⟨depth, hc⟩, by rw [Heap.storage_eq hc, storageWithin_congr hs]⟩

/-- A value without cells has its content in any heap. -/
theorem Stores.of_storage_eq_nil (h : heap.Stores value content) (hs : heap.storage value = []) :
    other.Stores value content := by
  refine (h.congr fun a ha => ?_).1
  rw [hs] at ha
  exact absurd ha List.not_mem_nil

end Heap

end CopySynth
