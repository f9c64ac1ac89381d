import CopySynth.Proofs.Contents

/-!
# New values

A new value has all its cells allocated since an earlier heap, each met once. Values put together
from new parts are new, and `build` makes a new value of any content.
-/

namespace CopySynth.Heap

/-- One heap has grown out of another: what was allocated is as it was. -/
structure Grows (before after : Heap) : Prop where
  size_le : before.size ≤ after.size
  read_eq : ∀ a < before.size, after.read a = before.read a

variable {before mid after later : Heap}

theorem Grows.refl (heap : Heap) : heap.Grows heap := ⟨Nat.le_refl _, fun _ _ => rfl⟩

theorem Grows.trans (h : before.Grows mid) (h' : mid.Grows after) : before.Grows after := by
  refine ⟨Nat.le_trans h.size_le h'.size_le, fun a ha => ?_⟩
  rw [h'.read_eq a (Nat.lt_of_lt_of_le ha h.size_le), h.read_eq a ha]

theorem Grows.alloc (heap : Heap) (items : List Value) : heap.Grows (heap.alloc items).2 :=
  ⟨by simp, fun _ ha => read_alloc_old items ha⟩

/-- A value whose cells are allocated is the same in a heap that has grown. -/
theorem Grows.stores (h : before.Grows after) {value : Value} {content : Content}
    (hs : before.Stores value content) (ha : ∀ a ∈ before.storage value, a < before.size) :
    after.Stores value content ∧ after.storage value = before.storage value :=
  hs.congr fun a hm => h.read_eq a (ha a hm)

/-- Values with these contents whose cells were all allocated between two heaps, each met once. -/
structure AllFresh (before : Heap) (contents : List Content) (values : List Value) (after : Heap) :
    Prop where
  grows : before.Grows after
  stores : List.Forall₂ after.Stores values contents
  cells : ∀ a ∈ values.flatMap after.storage, before.size ≤ a ∧ a < after.size
  distinct : (values.flatMap after.storage).Nodup

/-- A value with this content whose cells were all allocated between two heaps, each met once. -/
structure Fresh (before : Heap) (content : Content) (value : Value) (after : Heap) : Prop where
  grows : before.Grows after
  stores : after.Stores value content
  cells : ∀ a ∈ after.storage value, before.size ≤ a ∧ a < after.size
  distinct : (after.storage value).Nodup

theorem AllFresh.nil (heap : Heap) : AllFresh heap [] [] heap :=
  ⟨.refl heap, .nil, by simp, by simp⟩

/-- A new value and after it new values are new values: the cells come one after the other. -/
theorem AllFresh.cons {content : Content} {value : Value} {contents : List Content}
    {values : List Value} (h : Fresh before content value mid)
    (hs : AllFresh mid contents values after) :
    AllFresh before (content :: contents) (value :: values) after := by
  obtain ⟨hstores, hstorage⟩ := hs.grows.stores h.stores fun a ha => (h.cells a ha).2
  refine ⟨h.grows.trans hs.grows, .cons hstores hs.stores, ?_, ?_⟩
  · intro a ha
    rw [List.flatMap_cons, List.mem_append, hstorage] at ha
    rcases ha with ha | ha
    · exact ⟨(h.cells a ha).1, Nat.lt_of_lt_of_le (h.cells a ha).2 hs.grows.size_le⟩
    · exact ⟨Nat.le_trans h.grows.size_le (hs.cells a ha).1, (hs.cells a ha).2⟩
  · rw [List.flatMap_cons, hstorage, List.nodup_append]
    refine ⟨h.distinct, hs.distinct, ?_⟩
    rintro a ha b hb rfl
    have := (h.cells a ha).2
    have := (hs.cells a hb).1
    omega

/-- A value in place is new when its parts are. -/
theorem AllFresh.assemble {contents : List Content} (value : Value) {content : Content}
    (h : AllFresh before contents (after.parts value) after) (hv : value.address? = none)
    (hc : content = value.assemble contents) : Fresh before content value after := by
  have hstores : after.Stores value content := stores_iff.mpr ⟨contents, h.stores, hc⟩
  have hstorage : after.storage value = (after.parts value).flatMap after.storage := by
    rw [hstores.storage_eq, hv]
    rfl
  refine ⟨h.grows, hstores, ?_, ?_⟩
  · rw [hstorage]
    exact h.cells
  · rw [hstorage]
    exact h.distinct

/-- A growable sequence is new when its elements are and its cell is allocated after them. -/
theorem AllFresh.alloc {items : List Value} {contents : List Content}
    (h : AllFresh before contents items after) :
    Fresh before (.seq contents) (.seq after.size) (after.alloc items).2 := by
  have hgrows := Grows.alloc after items
  -- the elements were allocated before their cell and do not see it
  have hitems : ∀ item ∈ items, ∃ content, after.Stores item content := fun item hi => by
    obtain ⟨content, _, hs⟩ := exists_of_mem_left h.stores hi
    exact ⟨content, hs⟩
  have hold : ∀ item ∈ items, (after.alloc items).2.storage item = after.storage item := by
    intro item hi
    obtain ⟨content, hs⟩ := hitems item hi
    exact (hgrows.stores hs fun a ha => (h.cells a (List.mem_flatMap.mpr ⟨item, hi, ha⟩)).2).2
  have hparts : (after.alloc items).2.parts (.seq after.size) = items := read_alloc_new after items
  have hstores : (after.alloc items).2.Stores (.seq after.size) (.seq contents) := by
    refine stores_iff.mpr ⟨contents, ?_, rfl⟩
    rw [hparts]
    refine forall₂_imp_of_mem h.stores fun item hi content _ hs => ?_
    exact (hgrows.stores hs fun a ha => (h.cells a (List.mem_flatMap.mpr ⟨item, hi, ha⟩)).2).1
  have hstorage : (after.alloc items).2.storage (.seq after.size) =
      after.size :: items.flatMap after.storage := by
    rw [hstores.storage_eq, hparts, List.flatMap_congr hold]
    rfl
  refine ⟨h.grows.trans hgrows, hstores, ?_, ?_⟩
  · intro a ha
    rw [hstorage, List.mem_cons] at ha
    rw [size_alloc]
    rcases ha with rfl | ha
    · exact ⟨h.grows.size_le, Nat.lt_succ_self _⟩
    · have := h.cells a ha
      omega
  · rw [hstorage, List.nodup_cons]
    refine ⟨fun ha => ?_, h.distinct⟩
    have := (h.cells _ ha).2
    omega

/-- A value without parts is new anywhere. -/
theorem Fresh.of_parts_nil (value : Value) {content : Content} (hp : after.parts value = [])
    (hv : value.address? = none) (hc : content = value.assemble []) :
    Fresh after content value after := by
  refine AllFresh.assemble value ?_ hv hc
  rw [hp]
  exact .nil after

theorem AllFresh.array {contents : List Content} {items : List Value}
    (h : AllFresh before contents items after) :
    Fresh before (.array contents) (.array items) after :=
  AllFresh.assemble (.array items) h rfl rfl

theorem Fresh.slot {concrete : String} {content : Content} {value : Value}
    (h : Fresh before content value after) :
    Fresh before (.slot concrete content) (.slot concrete value) after :=
  AllFresh.assemble (.slot concrete value) (.cons h (.nil after)) rfl rfl

theorem AllFresh.record {contents : List (String × Content)} {fields : Fields Value}
    (hn : Fields.names fields = Fields.names contents)
    (h : AllFresh before (contents.map Prod.snd) (fields.map Prod.snd) after) :
    Fresh before (.record contents) (.record fields) after := by
  have hzip : (Fields.names fields).zip (contents.map Prod.snd) = contents := by
    rw [hn, Fields.names, ← List.unzip_fst, ← List.unzip_snd, List.zip_unzip]
  exact AllFresh.assemble (.record fields) h rfl (by rw [Value.assemble, hzip])

/-! ## Building -/

theorem names_buildFields (fields : List (String × Content)) (heap : Heap) :
    Fields.names (heap.buildFields fields).1 = Fields.names fields := by
  induction fields generalizing heap with
  | nil => rfl
  | cons field fields ih => exact congrArg (field.1 :: ·) (ih _)

mutual
/-- A value built from a content is new. -/
theorem fresh_build : ∀ (content : Content) (heap : Heap),
    Fresh heap content (heap.build content).1 (heap.build content).2
  | .scalar x, _ => .of_parts_nil (.scalar x) rfl rfl rfl
  | .unset, _ => .of_parts_nil .unset rfl rfl rfl
  | .slot _ inner, heap => (fresh_build inner heap).slot
  | .array items, heap => (allFresh_buildItems items heap).array
  | .seq items, heap => (allFresh_buildItems items heap).alloc
  | .record fields, heap =>
    (allFresh_buildFields fields heap).record (names_buildFields fields heap)

theorem allFresh_buildItems : ∀ (contents : List Content) (heap : Heap),
    AllFresh heap contents (heap.buildItems contents).1 (heap.buildItems contents).2
  | [], heap => .nil heap
  | content :: rest, heap => .cons (fresh_build content heap) (allFresh_buildItems rest _)

theorem allFresh_buildFields : ∀ (fields : List (String × Content)) (heap : Heap),
    AllFresh heap (fields.map Prod.snd) ((heap.buildFields fields).1.map Prod.snd)
      (heap.buildFields fields).2
  | [], heap => .nil heap
  | (_, content) :: rest, heap => .cons (fresh_build content heap) (allFresh_buildFields rest _)
end

end CopySynth.Heap
