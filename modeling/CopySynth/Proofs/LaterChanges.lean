import CopySynth.Proofs.DeepCopy
import CopySynth.Value.Store
import Mathlib.Logic.Relation

/-!
# Changes after a copy

A change through a variable reaches the cells its value leads to and no others. When the variables
that are changed, and what is put into them, lead to none of some cells, these cells keep their
elements, and the variables still lead to none of them afterwards. So a deep copy in a variable of
its own sees nothing that happens to the variables there were, and the copied value sees nothing
that happens to the copy.
-/

namespace CopySynth

namespace Heap

variable {heap middle later : Heap} {own : Nat → Prop} {value part : Value}

/-- No steps into a value lead to a growable sequence in one of these cells. -/
def Apart (heap : Heap) (own : Nat → Prop) (value : Value) : Prop :=
  ∀ steps address, heap.locate value steps = some (.seq address) → ¬ own address

theorem locate_cons_eq_some_iff {step : Step} {steps : List Step} {found : Value} :
    heap.locate value (step :: steps) = some found ↔
      ∃ part, heap.step? value step = some part ∧ heap.locate part steps = some found := by
  rw [locate, List.foldlM_cons]
  exact Option.bind_eq_some_iff

/-- A value is apart from some cells when its own cell is none of them and each step leads to a part
that is apart. -/
theorem apart_iff : heap.Apart own value ↔ (∀ a ∈ value.address?, ¬ own a) ∧
    ∀ step part, heap.step? value step = some part → heap.Apart own part := by
  constructor
  · refine fun h => ⟨fun a ha => ?_, fun step part hs steps address hl => ?_⟩
    · cases value with
      | seq address => exact Option.some.inj ha ▸ h [] address rfl
      | scalar | record | array | unset | slot => cases ha
    · exact h (step :: steps) address (locate_cons_eq_some_iff.mpr ⟨part, hs, hl⟩)
  · rintro ⟨ha, hs⟩ steps address hl
    cases steps with
    | nil =>
      cases Option.some.inj hl
      exact ha address rfl
    | cons step steps =>
      obtain ⟨part, hp, hl⟩ := locate_cons_eq_some_iff.mp hl
      exact hs step part hp steps address hl

theorem Apart.part_of_step (h : heap.Apart own value) {step : Step}
    (hs : heap.step? value step = some part) : heap.Apart own part :=
  (apart_iff.mp h).2 step part hs

/-- What is met in a value that is apart is apart. -/
theorem Apart.of_locate {steps : List Step} (h : heap.Apart own value)
    (hl : heap.locate value steps = some part) : heap.Apart own part := by
  induction steps generalizing value with
  | nil => exact Option.some.inj hl ▸ h
  | cons step steps ih =>
    obtain ⟨inner, hs, hl⟩ := locate_cons_eq_some_iff.mp hl
    exact ih (h.part_of_step hs) hl

/-- The elements of a sequence that is apart are apart. -/
theorem Apart.item {address : Nat} (h : heap.Apart own (.seq address)) {item : Value}
    (hi : item ∈ heap.read address) : heap.Apart own item := by
  obtain ⟨index, hi⟩ := List.getElem?_of_mem hi
  exact (apart_iff.mp h).2 (.item index) item hi

/-- Apart from some cells is apart from fewer. -/
theorem Apart.mono {fewer : Nat → Prop} (h : heap.Apart own value) (hf : ∀ a, fewer a → own a) :
    heap.Apart fewer value := fun steps address hl ho => h steps address hl (hf address ho)

/-- A step into a value depends on its own cell alone. -/
theorem step?_congr (h : ∀ a ∈ value.address?, later.read a = heap.read a) (step : Step) :
    later.step? value step = heap.step? value step := by
  cases value with
  | seq address => cases step <;> simp [step?, h address rfl]
  | scalar | record | array | unset | slot => cases step <;> rfl

/-- What is apart from some cells does not depend on them. -/
theorem Apart.congr (h : heap.Apart own value) (hr : ∀ a, ¬ own a → later.read a = heap.read a) :
    later.Apart own value := by
  intro steps
  induction steps generalizing value with
  | nil => exact h []
  | cons step steps ih =>
    intro address hl
    obtain ⟨part, hs, hl⟩ := locate_cons_eq_some_iff.mp hl
    rw [step?_congr fun a ha => hr a ((apart_iff.mp h).1 a ha)] at hs
    exact ih (h.part_of_step hs) address hl

/-- A step leads to a part. -/
theorem mem_parts_of_step? {step : Step} (h : heap.step? value step = some part) :
    part ∈ heap.parts value := by
  cases step with
  | field name =>
    cases value with
    | record fields => exact List.mem_map_of_mem (Fields.mem_of_get? h)
    | scalar | array | seq | unset | slot => cases h
  | item index =>
    cases value with
    | array items => exact List.mem_of_getElem? h
    | seq address => exact List.mem_of_getElem? h
    | scalar | record | unset | slot => cases h
  | inside =>
    cases value with
    | slot concrete inner => exact List.mem_singleton.mpr (Option.some.inj h).symm
    | scalar | record | array | seq | unset => cases h

/-- A finite value is apart from all cells but its own. -/
theorem Stores.apart {content : Content} (h : heap.Stores value content)
    (ho : ∀ a ∈ heap.storage value, ¬ own a) : heap.Apart own value := by
  intro steps
  induction steps generalizing value content with
  | nil =>
    intro address hl
    cases Option.some.inj hl
    exact ho address (h.mem_storage_of_address rfl)
  | cons step steps ih =>
    intro address hl
    obtain ⟨part, hs, hl⟩ := locate_cons_eq_some_iff.mp hl
    have hp := mem_parts_of_step? hs
    obtain ⟨contents, hall, _⟩ := stores_iff.mp h
    obtain ⟨inner, _, hinner⟩ := exists_of_mem_left hall hp
    exact ih hinner (fun a ha => ho a (h.mem_storage_of_part hp ha)) address hl

/-! ## What a change keeps -/

/-- These cells keep their elements, and what is apart from them stays so. -/
structure Keeps (own : Nat → Prop) (before after : Heap) : Prop where
  /-- No cell is lost. -/
  size_le : before.size ≤ after.size
  /-- The elements are the same. -/
  read_eq : ∀ a, own a → after.read a = before.read a
  /-- What led to none of the cells leads to none. -/
  apart : ∀ value, before.Apart own value → after.Apart own value

theorem Keeps.refl : Keeps own heap heap := ⟨Nat.le_refl _, fun _ _ => rfl, fun _ => id⟩

theorem Keeps.trans (h : Keeps own heap middle) (h' : Keeps own middle later) :
    Keeps own heap later :=
  ⟨Nat.le_trans h.size_le h'.size_le, fun a ho => (h'.read_eq a ho).trans (h.read_eq a ho), fun value hv =>
    h'.apart value (h.apart value hv)⟩

/-- A step leads to a part that was there or to one of a cell that has changed. -/
theorem step?_eq_or_mem {address : Nat} (hr : ∀ a ≠ address, later.read a = heap.read a)
    {step : Step} (h : later.step? value step = some part) :
    heap.step? value step = some part ∨ part ∈ later.read address := by
  by_cases hv : value = .seq address
  · exact .inr (mem_parts_of_step? (hv ▸ h))
  · refine .inl ((step?_congr (fun a ha => hr a fun he => hv ?_) step).symm.trans h)
    cases value with
    | seq => rw [← he, Option.some.inj ha]
    | scalar | record | array | unset | slot => cases ha

/-- New elements of one cell are kept away from other cells when all of them are apart. -/
theorem Keeps.of_cell {address : Nat} (ho : ¬ own address) (hle : heap.size ≤ later.size)
    (hr : ∀ a ≠ address, later.read a = heap.read a)
    (hi : ∀ item ∈ later.read address, heap.Apart own item) : Keeps own heap later := by
  refine ⟨hle, fun a ha => hr a fun he => ho (he ▸ ha), fun value hv steps => ?_⟩
  induction steps generalizing value with
  | nil => exact hv []
  | cons step steps ih =>
    intro found hl
    obtain ⟨part, hs, hl⟩ := locate_cons_eq_some_iff.mp hl
    refine ih part ?_ found hl
    rcases step?_eq_or_mem hr hs with hs | hm
    · exact hv.part_of_step hs
    · exact hi part hm

theorem mem_of_mem_read_update {address : Nat} {items : List Value} {item : Value}
    (h : item ∈ (heap.update address items).read address) : item ∈ items := by
  simp only [update, read, Array.getElem?_setIfInBounds_self] at h
  split at h
  · exact h
  · cases h

theorem Keeps.update {address : Nat} {items : List Value} (ho : ¬ own address)
    (hi : ∀ item ∈ items, heap.Apart own item) : Keeps own heap (heap.update address items) :=
  .of_cell ho (by simp [Heap.update, size]) (fun _ ha => read_update_other heap items ha) fun item hm =>
    hi item (mem_of_mem_read_update hm)

theorem Keeps.alloc {items : List Value} (ho : ¬ own heap.size)
    (hi : ∀ item ∈ items, heap.Apart own item) : Keeps own heap (heap.alloc items).2 := by
  refine .of_cell ho (by simp) (fun a ha => ?_) fun item hm =>
    hi item (by rwa [read_alloc_new] at hm)
  rcases Nat.lt_or_ge a heap.size with hlt | hge
  · exact read_alloc_old items hlt
  · have hlt : heap.cells.size < a := Nat.lt_of_le_of_ne hge (Ne.symm ha)
    simp [Heap.alloc, read, hlt, Nat.le_of_lt hlt]

/-- What a replacement does one step out, when the part one step in has been replaced: a cell deeper
in has changed, or the cell of the sequence gets the new element, or a whole is put together from
the new part and what other steps lead to. -/
theorem replace_cons {step : Step} {steps : List Step} {changed : Option Value} {old : Value}
    (h : heap.replace part (step :: steps) value = some (changed, old, later)) :
    ∃ inner new middle, heap.step? value step = some inner ∧
      heap.replace part steps inner = some (new, old, middle) ∧
      ((new = none ∧ changed = none ∧ later = middle) ∨
      (∃ item address index, new = some item ∧ value = .seq address ∧ changed = none ∧
        later = middle.update address ((middle.read address).set index item)) ∨
      ∃ item whole, new = some item ∧ changed = some whole ∧ later = middle ∧
        whole.address? = none ∧ ∀ next found, middle.step? whole next = some found →
          found = item ∨ middle.step? value next = some found) := by
  rw [replace] at h
  simp only [Option.bind_eq_bind, Option.bind_eq_some_iff] at h
  obtain ⟨inner, hs, ⟨new, given, middle⟩, hr, h⟩ := h
  cases new with
  | none =>
    cases Option.some.inj h
    exact ⟨inner, none, _, hs, hr, .inl ⟨rfl, rfl, rfl⟩⟩
  | some item =>
    refine ⟨inner, some item, middle, hs, ?_⟩
    cases step with
    | field name =>
      cases value with
      | record fields =>
        cases Option.some.inj h
        refine ⟨hr, .inr (.inr ⟨item, _, rfl, rfl, rfl, rfl, fun next found hf => ?_⟩)⟩
        cases next with
        | field other =>
          by_cases hn : other = name
          · subst hn
            exact .inl (Option.some.inj (hf.symm.trans (Fields.get?_put_self fields other item)))
          · exact .inr ((Fields.get?_put_of_ne fields item hn).symm.trans hf)
        | item | inside => cases hf
      | scalar | array | seq | unset | slot => cases hs
    | item index =>
      cases value with
      | array items =>
        cases Option.some.inj h
        refine ⟨hr, .inr (.inr ⟨item, _, rfl, rfl, rfl, rfl, fun next found hf => ?_⟩)⟩
        cases next with
        | item other =>
          by_cases hn : index = other
          · subst hn
            have hf : (items.set index item)[index]? = some found := hf
            rw [List.getElem?_set_self', Option.map_eq_map, Option.map_eq_some_iff] at hf
            obtain ⟨_, _, hf⟩ := hf
            exact .inl hf.symm
          · exact .inr ((List.getElem?_set_ne hn).symm.trans hf)
        | field | inside => cases hf
      | seq address =>
        cases Option.some.inj h
        exact ⟨hr, .inr (.inl ⟨item, address, index, rfl, rfl, rfl, rfl⟩)⟩
      | scalar | record | unset | slot => cases hs
    | inside =>
      cases value with
      | slot concrete value =>
        cases Option.some.inj h
        refine ⟨hr, .inr (.inr ⟨item, _, rfl, rfl, rfl, rfl, fun next found hf => ?_⟩)⟩
        cases next with
        | inside => exact .inl (Option.some.inj hf).symm
        | field | item => cases hf
      | scalar | record | array | seq | unset => cases hs

/-- A part replaced in a value that is apart, by one that is, leaves the cells as they are and the
value apart. -/
theorem Keeps.replace {steps : List Step} {changed : Option Value} {old : Value}
    (hv : heap.Apart own value) (hp : heap.Apart own part)
    (h : heap.replace part steps value = some (changed, old, later)) :
    Keeps own heap later ∧ ∀ new ∈ changed, later.Apart own new := by
  induction steps generalizing value changed later with
  | nil =>
    cases Option.some.inj h
    exact ⟨.refl, fun new hn => Option.some.inj hn ▸ hp⟩
  | cons step steps ih =>
    obtain ⟨inner, new, middle, hs, hr, hcases⟩ := replace_cons h
    obtain ⟨hkeeps, hnew⟩ := ih (hv.part_of_step hs) hr
    -- a cell further in may have changed by now, but the value is still apart
    have hthere := hkeeps.apart value hv
    rcases hcases with ⟨rfl, rfl, rfl⟩ | ⟨item, address, index, rfl, rfl, rfl, rfl⟩ |
      ⟨item, whole, rfl, rfl, rfl, hplace, hsteps⟩
    · exact ⟨hkeeps, fun _ hn => absurd hn (Option.not_mem_none _)⟩
    · refine ⟨hkeeps.trans (.update (hv [] address rfl) fun other hm => ?_),
        fun _ hn => absurd hn (Option.not_mem_none _)⟩
      rcases List.mem_or_eq_of_mem_set hm with hm | rfl
      · exact hthere.item hm
      · exact hnew _ rfl
    · refine ⟨hkeeps, fun found hn => ?_⟩
      cases Option.some.inj hn
      refine apart_iff.mpr ⟨by simp [hplace], fun next found hf => ?_⟩
      rcases hsteps next found hf with rfl | hf
      · exact hnew _ rfl
      · exact hthere.part_of_step hf

end Heap

namespace Store

variable {store after later : Store} {own : Nat → Prop} {names : String → Prop}

/-- A change through one of these variables that puts in only what leads to none of the cells. -/
inductive Change (own : Nat → Prop) (names : String → Prop) (store : Store) : Store → Prop where
  /-- The variable gets a value. -/
  | assign {name : String} {value : Value} (hn : names name) (hv : store.heap.Apart own value) :
      Change own names store (store.assign name value)
  /-- The variable gets a new sequence. -/
  | alloc {name : String} {items : List Value} (hn : names name)
      (hi : ∀ item ∈ items, store.heap.Apart own item) :
      Change own names store
        (({ store with heap := (store.heap.alloc items).2 } : Store).assign name
          (.seq store.heap.size))
  /-- The part at a place in the variable is replaced. -/
  | set {place : Place} {part old : Value} {after : Store} (hn : names place.root)
      (hp : store.heap.Apart own part) (h : store.set? place part = some (old, after)) :
      Change own names store after
  /-- The sequence at a place in the variable gets one more element. -/
  | append {place : Place} {part : Value} {length : Nat} {after : Store} (hn : names place.root)
      (hp : store.heap.Apart own part) (h : store.append? place part = some (length, after)) :
      Change own names store after

/-- All of these cells are there, and the variables lead to none of them. -/
structure Spares (store : Store) (own : Nat → Prop) (names : String → Prop) : Prop where
  /-- The cells are there. -/
  allocated : ∀ a, own a → a < store.heap.size
  /-- The variables do not lead to them. -/
  apart : ∀ name, names name → ∀ value ∈ store.bindings.get? name, store.heap.Apart own value

/-- What changes through these variables keep. -/
structure Kept (own : Nat → Prop) (names : String → Prop) (before after : Store) : Prop where
  /-- The variables lead to none of the cells. -/
  spares : after.Spares own names
  /-- The cells have the same elements. -/
  read_eq : ∀ a, own a → after.heap.read a = before.heap.read a
  /-- The other variables have the same values. -/
  get?_eq : ∀ name, ¬ names name → after.bindings.get? name = before.bindings.get? name

theorem Kept.trans (h : Kept own names store after) (h' : Kept own names after later) :
    Kept own names store later :=
  ⟨h'.spares, fun a ho => (h'.read_eq a ho).trans (h.read_eq a ho),
    fun name hn => (h'.get?_eq name hn).trans (h.get?_eq name hn)⟩

/-- The heap may change as long as it keeps the cells. -/
theorem Spares.kept_of_keeps (hs : store.Spares own names) {heap : Heap}
    (hk : Heap.Keeps own store.heap heap) : Kept own names store { store with heap } :=
  ⟨⟨fun a ho => Nat.lt_of_lt_of_le (hs.allocated a ho) hk.size_le,
    fun name hn value hv => hk.apart value (hs.apart name hn value hv)⟩, hk.read_eq, fun _ _ => rfl⟩

/-- One of the variables may get a value that leads to none of the cells. -/
theorem Spares.kept_assign (hs : store.Spares own names) {name : String} {value : Value}
    (hn : names name) (hv : store.heap.Apart own value) :
    Kept own names store (store.assign name value) := by
  refine ⟨⟨hs.allocated, fun other ho found hf => ?_⟩, fun _ _ => rfl,
    fun other ho => Fields.get?_put_of_ne _ _ fun he => ho (he ▸ hn)⟩
  by_cases he : other = name
  · subst he
    cases (Fields.get?_put_self store.bindings other value).symm.trans hf
    exact hv
  · exact hs.apart other ho found ((Fields.get?_put_of_ne _ value he).symm.trans hf)

/-- What one change keeps. -/
theorem Change.kept (h : Change own names store after) (hs : store.Spares own names) :
    Kept own names store after := by
  cases h with
  | assign hn hv => exact hs.kept_assign hn hv
  | @alloc name items hn hi =>
    have ho : ¬ own store.heap.size := fun ho => Nat.lt_irrefl _ (hs.allocated _ ho)
    have hk := Heap.Keeps.alloc ho hi
    have hkept := hs.kept_of_keeps hk
    refine hkept.trans (hkept.spares.kept_assign hn ?_)
    refine Heap.apart_iff.mpr ⟨fun a ha => Option.some.inj ha ▸ ho, fun step part hp => ?_⟩
    have hm : part ∈ (store.heap.alloc items).2.read store.heap.size := Heap.mem_parts_of_step? hp
    rw [Heap.read_alloc_new] at hm
    exact hk.apart part (hi part hm)
  | @set place part old after hn hp h =>
    simp only [set?, Option.bind_eq_bind, Option.bind_eq_some_iff] at h
    obtain ⟨value, hv, ⟨changed, given, heap⟩, hr, h⟩ := h
    cases Option.some.inj h
    have hvalue := hs.apart place.root hn value hv
    obtain ⟨hk, hnew⟩ := Heap.Keeps.replace hvalue hp hr
    have hkept := hs.kept_of_keeps hk
    refine hkept.trans (hkept.spares.kept_assign hn ?_)
    cases changed with
    | none => exact hk.apart value hvalue
    | some new => exact hnew new rfl
  | @append place part length after hn hp h =>
    simp only [append?, get?, Option.bind_eq_bind, Option.bind_eq_some_iff] at h
    obtain ⟨found, ⟨value, hv, hl⟩, h⟩ := h
    cases found with
    | seq address =>
      cases Option.some.inj h
      have hvalue := hs.apart place.root hn value hv
      refine hs.kept_of_keeps (.update (hvalue place.steps address hl) fun item hm => ?_)
      rcases List.mem_append.mp hm with hm | hm
      · exact (hvalue.of_locate hl).item hm
      · exact List.mem_singleton.mp hm ▸ hp
    | scalar | record | array | unset | slot => cases h

/-- What any number of changes keep. -/
theorem kept_of_changes (h : Relation.ReflTransGen (Change own names) store later)
    (hs : store.Spares own names) : Kept own names store later := by
  induction h with
  | refl => exact ⟨hs, fun _ _ => rfl, fun _ _ => rfl⟩
  | tail _ hc ih => exact ih.trans (hc.kept ih.spares)

end Store

namespace Heap.DeepCopy

variable {store later : Store} {value copy : Value} {content : Content} {after : Heap}
  {name : String}

/-- A deep copy in a variable of its own has the same content whatever happens to the other
variables, when all of them led only to cells that were there before the copy. -/
theorem content?_copy_of_changes (h : store.heap.DeepCopy value content copy after)
    (hw : ∀ other, ∀ found ∈ store.bindings.get? other,
      store.heap.Apart (store.heap.size ≤ ·) found)
    (hc : Relation.ReflTransGen (Store.Change (· ∈ after.storage copy) (· ≠ name))
      (({ store with heap := after } : Store).assign name copy) later) :
    later.bindings.get? name = some copy ∧ later.heap.content? copy = some content := by
  have hs : (({ store with heap := after } : Store).assign name copy).Spares
      (· ∈ after.storage copy) (· ≠ name) := by
    refine ⟨fun a ha => (h.new a ha).2, fun other hn found hf => ?_⟩
    have hold := hw other found ((Fields.get?_put_of_ne _ copy hn).symm.trans hf)
    have hthere := hold.congr fun a ha => h.old a (Nat.lt_of_not_le ha)
    exact hthere.mono fun a ha => (h.new a ha).1
  have hkept := Store.kept_of_changes hc hs
  refine ⟨(hkept.get?_eq name (· rfl)).trans (Fields.get?_put_self store.bindings name copy), ?_⟩
  exact h.copyKept later.heap hkept.read_eq

/-- The copied value has the same content whatever happens to the variable that holds the copy, and
all other variables keep their values, when making the copy has only added cells. -/
theorem content?_value_of_changes (h : store.heap.DeepCopy value content copy after)
    (hle : store.heap.size ≤ after.size)
    (hc : Relation.ReflTransGen (Store.Change (· < store.heap.size) (· = name))
      (({ store with heap := after } : Store).assign name copy) later) :
    (∀ other ≠ name, later.bindings.get? other = store.bindings.get? other) ∧
      later.heap.content? value = some content := by
  have hs : (({ store with heap := after } : Store).assign name copy).Spares
      (· < store.heap.size) (· = name) := by
    refine ⟨fun a ha => Nat.lt_of_lt_of_le ha hle, fun other hn found hf => ?_⟩
    subst hn
    cases (Fields.get?_put_self store.bindings other copy).symm.trans hf
    exact (content?_eq_some_iff.mp h.same).apart fun a ha => Nat.not_lt_of_le (h.new a ha).1
  have hkept := Store.kept_of_changes hc hs
  refine ⟨fun other hn => (hkept.get?_eq other hn).trans (Fields.get?_put_of_ne _ copy hn), ?_⟩
  exact h.valueKept later.heap fun a ha => (hkept.read_eq a ha).trans (h.old a ha)

end Heap.DeepCopy

end CopySynth
