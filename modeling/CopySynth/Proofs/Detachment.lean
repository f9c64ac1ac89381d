import CopySynth.Proofs.DeepCopy

/-!
# Detached values

A value is detached by building its content anew. A walk through the value that duplicates it part
by part comes to the same: it reads a cell as often as it meets it and allocates a new one each
time, and what it allocates on its way does not disturb what it has still to read.
-/

namespace CopySynth

/-- Duplicates a value part by part, in fewer nested steps than the bound. The cell of a sequence is
allocated after its elements. -/
def detachWithin : Nat → Value → Alloc Value
  | 0, _ => throw (.evaluation .endlessValue)
  | depth + 1, value =>
    match value with
    | .record fields => do
      return .record (← fields.mapM fun field => do
        return (field.1, ← detachWithin depth field.2))
    | .array items => do return .array (← items.mapM (detachWithin depth))
    | .seq address => do
      let items := (← get).read address
      allocSeq (← items.mapM (detachWithin depth))
    | .slot concrete inner => do return .slot concrete (← detachWithin depth inner)
    | .scalar _ | .unset => return value

/-- A step that, from any heap grown out of a base, does what building a content does. -/
def BuildsOn (base : Heap) (content : Content) (step : Alloc Value) : Prop :=
  ∀ before, base.Grows before → step.run before = .ok (before.build content)

variable {base before heap : Heap} {depth : Nat} {value : Value} {content : Content}

theorem Heap.Grows.build (h : base.Grows before) (content : Content) :
    base.Grows (before.build content).2 :=
  h.trans (Heap.fresh_build content before).grows

/-- Steps along a list build contents one after the other. -/
theorem BuildsOn.mapM {step : Value → Alloc Value} {items : List Value} {contents : List Content}
    (h : List.Forall₂ (fun item content => BuildsOn base content (step item)) items contents)
    (hb : base.Grows before) :
    (items.mapM step).run before = .ok (before.buildItems contents) := by
  induction h generalizing before with
  | nil => rfl
  | @cons item content items contents hstep _ ih =>
    rw [List.mapM_cons]
    exact run_bind_eq_ok (hstep before hb) (run_bind_eq_ok (ih (hb.build content)) rfl)

/-- Steps along the fields of a record build contents under the same names. -/
theorem BuildsOn.mapM_fields {step : Value → Alloc Value} {fields : Fields Value}
    {contents : List Content}
    (h : List.Forall₂ (fun part content => BuildsOn base content (step part))
      (fields.map Prod.snd) contents)
    (hb : base.Grows before) :
    (fields.mapM fun field => do return (field.1, ← step field.2) : Alloc (Fields Value)).run
      before = .ok (before.buildFields (fields.names.zip contents)) := by
  induction fields generalizing before contents with
  | nil => cases h; rfl
  | cons field fields ih =>
    cases h with
    | @cons _ content _ contents hstep h =>
    rw [List.mapM_cons]
    exact run_bind_eq_ok (run_bind_eq_ok (hstep before hb) rfl)
      (run_bind_eq_ok (ih h (hb.build content)) rfl)

/-- The walk through a finite value builds its content. -/
theorem buildsOn_detachWithin (hc : base.contentWithin depth value = some content)
    (ha : ∀ a ∈ base.storage value, a < base.size) :
    BuildsOn base content (detachWithin depth value) := by
  induction depth generalizing value content with
  | zero => simp [Heap.contentWithin] at hc
  | succ depth ih =>
    have hstores : base.Stores value content := ⟨_, hc⟩
    obtain ⟨contents, hall, rfl⟩ := Heap.contentWithin_succ_iff.mp hc
    have hparts : List.Forall₂ (fun part content =>
        BuildsOn base content (detachWithin depth part)) (base.parts value) contents :=
      forall₂_imp_of_mem hall fun part hp inner _ hi =>
        ih hi fun a hm => ha a (hstores.mem_storage_of_part hp hm)
    intro before hb
    cases value with
    | scalar => rfl
    | unset => rfl
    | record fields => exact run_bind_eq_ok (BuildsOn.mapM_fields hparts hb) rfl
    | array items => exact run_bind_eq_ok (BuildsOn.mapM hparts hb) rfl
    | slot concrete inner =>
      cases hparts with
      | cons hpart hnil =>
        cases hnil
        exact run_bind_eq_ok (hpart before hb) rfl
    | seq address =>
      -- what was allocated on the way lies behind the cell that is read
      have hread : before.read address = base.read address :=
        hb.read_eq address (ha address (hstores.mem_storage_of_address rfl))
      have hget : (get : Alloc Heap).run before = .ok (before, before) := rfl
      refine run_bind_eq_ok hget ?_
      rw [hread]
      exact run_bind_eq_ok (BuildsOn.mapM hparts hb) rfl

/-- Every finite value can be detached: what is made has the same content, and all its sequences
have new cells, each its own. Where the cells of the value are allocated, the two never see a change
of each other, and the walk through the value makes the same. -/
theorem detach_deepCopy (hc : heap.Stores value content) :
    ∃ copy after, (detach value).run heap = .ok (copy, after) ∧
      heap.Fresh content copy after ∧
      ((∀ a ∈ heap.storage value, a < heap.size) →
        heap.DeepCopy value content copy after ∧
        ∃ depth, (detachWithin depth value).run heap = .ok (copy, after)) := by
  have hfresh := heap.fresh_build content
  have hread : heap.content? value = some content := Heap.content?_eq_some_iff.mpr hc
  have hget : (get : Alloc Heap).run heap = .ok (heap, heap) := rfl
  refine ⟨_, _, run_bind_eq_ok hget ?_, hfresh, fun ha => ⟨hfresh.deepCopy hc ha, ?_⟩⟩
  · rw [hread]
    rfl
  · obtain ⟨depth, hdepth⟩ := hc
    exact ⟨depth, buildsOn_detachWithin hdepth ha heap (.refl heap)⟩

/-- A cell with a number that is none, and one that holds it twice. -/
def tangleHeap : Heap where
  cells := #[[.scalar (.float .nan)], [.seq 0, .seq 0]]

/-- A record that holds the second cell twice, once behind an interface. -/
def tangle : Value :=
  .record [("left", .seq 1), ("right", .array [.seq 0, .slot "Pair" (.seq 1)])]

/-- Seven times a cell is met in the value, and its duplicate has seven cells. -/
theorem detach_tangle :
    tangleHeap.storage tangle = [1, 0, 0, 0, 1, 0, 0] ∧
    ∃ content copy after, (detach tangle).run tangleHeap = .ok (copy, after) ∧
      after.storage copy = [4, 2, 3, 5, 8, 6, 7] ∧
      tangleHeap.Fresh content copy after ∧ tangleHeap.DeepCopy tangle content copy after := by
  obtain ⟨copy, after, hrun, hfresh, hall⟩ := @detach_deepCopy tangleHeap tangle _ ⟨6, rfl⟩
  have hmade : (detach tangle).run tangleHeap = .ok _ := rfl
  cases hrun.symm.trans hmade
  exact ⟨rfl, _, _, _, hrun, rfl, hfresh, (hall (by decide +kernel)).1⟩

end CopySynth
