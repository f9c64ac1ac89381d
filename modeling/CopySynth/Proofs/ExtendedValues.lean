import CopySynth.Proofs.CopyDepth
import CopySynth.Proofs.CopyOutcome
import CopySynth.Proofs.ExtendedRuns
import CopySynth.Proofs.ReorderedValues

/-!
# Values over larger tables

The methods for the types of a closed part of a table do the same over the whole table as over the
part. A predicate hands on to types of the part only. A copy does as well as long as the interfaces
in the value hold types of the part; then it takes the same steps on the same cells.
-/

namespace CopySynth

theorem allM_congr_of_mem {α ε : Type} {f g : α → Except ε Bool} {xs : List α}
    (h : ∀ x ∈ xs, f x = g x) : xs.allM f = xs.allM g := by
  induction xs with
  | nil => rfl
  | cons x xs ih =>
    obtain ⟨hx, hxs⟩ := List.forall_mem_cons.mp h
    rw [List.allM, List.allM, hx, ih hxs]

/-! ## Zero predicates -/

/-- The body of a predicate does the same when its tests do, on constituents of the type. -/
theorem Synthesis.applyTests_congr {table other : Table} {heap : Heap}
    {pass pass' : ZeroTest → Ref → Value → Except GenerationError Bool} {name : String}
    {shape : Shape} {body : ZeroBody}
    (hz : other.zeroContent (.named name) = table.zeroContent (.named name))
    (h : ∀ test ∈ body.tests, ∀ slot ∈ shape.slots, ∀ part,
      pass' test slot.2 part = pass test slot.2 part) (value : Value) :
    applyTests other heap pass' name shape body value =
      applyTests table heap pass name shape body value := by
  cases body with
  | equalsZeroValue => rw [applyTests, applyTests, hz]
  | allFields tests =>
    cases shape with
    | record fields =>
      refine allM_congr_of_mem fun entry hf => ?_
      obtain ⟨field, test⟩ := entry
      dsimp only
      cases value.field? field with
      | none => rfl
      | some part =>
        cases hd : Fields.get? fields field with
        | none => rfl
        | some ref => exact h test (List.mem_map_of_mem hf) (field, ref) (Fields.mem_of_get? hd) part
    | builtin | fixed | dynamic => rfl
  | allElements test =>
    cases shape with
    | fixed length element =>
      cases value with
      | array items =>
        exact allM_congr_of_mem fun item _ =>
          h _ List.mem_cons_self _ (List.mem_singleton_self _) item
      | scalar | record | seq | unset | slot => rfl
    | builtin | dynamic | record => rfl

namespace Table.Within

variable {table other : Table} {language : Code.Language} {config : Config} {roots : List String}
  {synthesis found : Synthesis}

section Predicates

variable (h : table.Within other) (hv : table.validate language = .ok ())
  (hv' : other.validate language = .ok ())
include h hv hv'

/-- A test of a constituent does the same if the predicate does that it hands on to. -/
theorem passes_eq {heap : Heap} {isZeroOf isZeroOf' : String → Value → Except GenerationError Bool}
    {test : ZeroTest} {ref : Ref} {value : Value}
    (hr : ∀ name, ref.Uses name → name ∈ table.names)
    (hcall : ∀ target, test.delegate? = some target →
      isZeroOf' target value = isZeroOf target value) :
    Synthesis.passes other heap isZeroOf' test ref value =
      Synthesis.passes table heap isZeroOf test ref value := by
  cases test with
  | literal | zeroValue => rw [Synthesis.passes, Synthesis.passes, h.zeroContent_eq hv hv' hr]
  | empty | unset => rfl
  | delegate target => exact hcall target rfl

variable (hs : table.synthesize language config roots = .ok synthesis)
  (hs' : other.synthesize language config roots = .ok found)
include hs hs'

theorem isZeroWithin_eq (heap : Heap) (depth : Nat) {type : String} (ht : type ∈ table.names)
    (value : Value) : found.isZeroWithin other heap depth type value =
      synthesis.isZeroWithin table heap depth type value := by
  induction depth generalizing type value with
  | zero => rfl
  | succ depth ih =>
    obtain ⟨name, shape, hr⟩ := exists_resolve_of_validate hv ht "evaluation"
    have hg := get?_of_resolve hr
    have hn := mem_names_of_get? hg
    have hr' := (h.resolve_eq hv hv' ht "evaluation").trans hr
    have hb' := h.zeroBody?_eq hv hv' hs hs' hn
    cases hb : synthesis.zeroBody? name with
    | none =>
      rw [Synthesis.isZeroWithin_of_none hr hb, Synthesis.isZeroWithin_of_none hr' (hb'.trans hb)]
    | some body =>
      rw [Synthesis.isZeroWithin_of_body hr hb, Synthesis.isZeroWithin_of_body hr' (hb'.trans hb)]
      refine Synthesis.applyTests_congr
        (h.zeroContent_eq hv hv' fun _ hu => uses_named_iff.mp hu ▸ hn) ?_ value
      -- a predicate hands on to types of the table
      intro test htest slot hslot part
      refine h.passes_eq hv hv' (mem_names_of_slot hv hg hslot) fun target htarget => ?_
      have hcalled : target ∈ body.delegates := by
        rw [ZeroBody.delegates_eq_filterMap]
        exact List.mem_filterMap.mpr ⟨test, htest, htarget⟩
      obtain ⟨_, hg, _⟩ :=
        get?_of_mem_delegates ((zerosClosed_of_synthesize hs).bodies name body hb) hcalled
      exact ih (mem_names_of_get? hg) part

end Predicates

end Table.Within

/-! ## Steps that agree -/

/-- Two steps have the same result from every heap grown out of a base, and grow it further. -/
def Agrees {α : Type} (base : Heap) (step next : Alloc α) : Prop :=
  ∀ before, base.Grows before → next.run before = step.run before ∧
    ∀ a after, step.run before = .ok (a, after) → base.Grows after

namespace Agrees

variable {α β : Type} {base : Heap}

theorem pure (a : α) : Agrees base (pure a) (pure a) := by
  refine fun before hb => ⟨rfl, ?_⟩
  rintro a after ⟨⟩
  exact hb

theorem throw (fault : GenerationError) : Agrees base (throw fault : Alloc α) (throw fault) := by
  refine fun before hb => ⟨rfl, ?_⟩
  rintro a after ⟨⟩

theorem bind {first first' : Alloc α} {second second' : α → Alloc β}
    (hf : Agrees base first first') (hs : ∀ a, Agrees base (second a) (second' a)) :
    Agrees base (first >>= second) (first' >>= second') := by
  intro before hb
  obtain ⟨heq, hgrows⟩ := hf before hb
  rw [StateT.run_bind, StateT.run_bind, heq]
  cases hfirst : first.run before with
  | error fault => exact ⟨rfl, fun _ _ hc => by cases hc⟩
  | ok result => exact hs result.1 result.2 (hgrows _ _ hfirst)

theorem mapM {step next : α → Alloc β} {items : List α}
    (h : ∀ item ∈ items, Agrees base (step item) (next item)) :
    Agrees base (items.mapM step) (items.mapM next) := by
  induction items with
  | nil => exact pure []
  | cons item items ih =>
    obtain ⟨hitem, hitems⟩ := List.forall_mem_cons.mp h
    rw [List.mapM_cons, List.mapM_cons]
    exact hitem.bind fun b => (ih hitems).bind fun bs => pure (b :: bs)

theorem foldlM {step next : β → α → Alloc β} {items : List α}
    (h : ∀ item ∈ items, ∀ b, Agrees base (step b item) (next b item)) (b : β) :
    Agrees base (items.foldlM step b) (items.foldlM next b) := by
  induction items generalizing b with
  | nil => exact pure b
  | cons item items ih =>
    obtain ⟨hitem, hitems⟩ := List.forall_mem_cons.mp h
    rw [List.foldlM_cons, List.foldlM_cons]
    exact (hitem b).bind (ih hitems)

theorem allocSeq (items : List Value) : Agrees base (allocSeq items) (allocSeq items) := by
  refine fun before hb => ⟨rfl, ?_⟩
  rintro _ _ ⟨⟩
  exact hb.trans (.alloc before items)

end Agrees

namespace Synthesis

variable {base : Heap}

/-- A body does the same when what it does with the parts of the value is the same. -/
theorem agrees_applyBody {step next : ElementCopy → Value → Alloc Value} (type : String)
    {body : CopyBody} {value : Value} (ha : ∀ a ∈ value.address?, a < base.size)
    (h : ∀ how ∈ body.elements, ∀ part ∈ base.parts value,
      Agrees base (step how part) (next how part)) :
    Agrees base (applyBody step type body value) (applyBody next type body value) := by
  cases body with
  | trivial | shallow => exact .pure _
  | dynamic element =>
    cases value with
    | seq address =>
      intro before hb
      have hread : before.read address = base.read address := hb.read_eq address (ha address rfl)
      have hitems : Agrees base ((before.read address).mapM (step element))
          ((before.read address).mapM (next element)) := by
        rw [hread]
        exact .mapM fun item hi => h element List.mem_cons_self item hi
      exact (hitems.bind fun items => .allocSeq items) before hb
    | scalar | record | array | unset | slot => exact .throw _
  | fixed length element =>
    cases value with
    | array items =>
      exact (Agrees.mapM fun item hi => h element List.mem_cons_self item hi).bind fun _ => .pure _
    | scalar | record | seq | unset | slot => exact .throw _
  | record copies =>
    cases value with
    | record fields =>
      refine (Agrees.foldlM (fun field hf copy => ?_) _).bind fun _ => .pure _
      dsimp only
      cases hpart : Fields.get? fields field.1 with
      | none => exact .throw _
      | some part =>
        have hf : field ∈ copies := (List.mem_filter.mp hf).1
        refine (h field.2 (List.mem_map_of_mem hf) part ?_).bind fun _ => .pure _
        exact List.mem_map_of_mem (Fields.mem_of_get? hpart)
    | scalar | array | seq | unset | slot => exact .throw _

end Synthesis

/-! ## Copies -/

/-- All interfaces in a content are unset or hold one of these types. -/
inductive Content.SlotsAmong (P : String → Prop) : Content → Prop
  | scalar {x} : SlotsAmong P (.scalar x)
  | record {fields} (h : ∀ field ∈ fields, SlotsAmong P field.2) : SlotsAmong P (.record fields)
  | array {items} (h : ∀ item ∈ items, SlotsAmong P item) : SlotsAmong P (.array items)
  | seq {items} (h : ∀ item ∈ items, SlotsAmong P item) : SlotsAmong P (.seq items)
  | unset : SlotsAmong P .unset
  | slot {concrete content} (hp : P concrete) (h : SlotsAmong P content) :
      SlotsAmong P (.slot concrete content)

/-- The parts of a value hold no other types than the value. -/
theorem Content.SlotsAmong.parts {P : String → Prop} {heap : Heap} {value : Value}
    {contents : List Content} (h : (value.assemble contents).SlotsAmong P)
    (hlen : (heap.parts value).length = contents.length) :
    ∀ content ∈ contents, content.SlotsAmong P := by
  cases value with
  | scalar | unset =>
    intro content hc
    rw [List.length_eq_zero_iff.mp hlen.symm] at hc
    exact absurd hc List.not_mem_nil
  | record fields =>
    cases h with
    | record h =>
      intro content hc
      have hle : contents.length ≤ (Fields.names fields).length := by
        rw [← hlen, Heap.parts, List.length_map, Fields.names, List.length_map]
      rw [← List.map_snd_zip hle] at hc
      obtain ⟨field, hf, rfl⟩ := List.mem_map.mp hc
      exact h field hf
  | array items =>
    cases h with
    | array h => exact h
  | seq address =>
    cases h with
    | seq h => exact h
  | slot concrete inner =>
    cases h with
    | slot _ h =>
      obtain ⟨content, rfl⟩ := List.length_eq_one_iff.mp hlen.symm
      exact List.forall_mem_singleton.mpr h

namespace Table.Within

variable {table other : Table} {language : Code.Language} {config : Config} {roots : List String}
  {synthesis found : Synthesis} {heap : Heap} {value : Value} {content : Content}
  (h : table.Within other) (hv : table.validate language = .ok ())
  (hv' : other.validate language = .ok ())
  (hs : table.synthesize language config roots = .ok synthesis)
  (hs' : other.synthesize language config roots = .ok found)
  (hroots : ∀ root ∈ roots, root ∈ table.names)
include h hv hv' hs hs' hroots

theorem copyBody?_eq (type : String) : found.copyBody? type = synthesis.copyBody? type := by
  rw [Synthesis.copyBody?_eq_get?, Synthesis.copyBody?_eq_get?,
    (h.copies_eq hv hv' hs hs' hroots).2.1]

theorem variantCopy_eq {concrete : String} (hn : concrete ∈ table.names) :
    found.variantCopy other concrete = synthesis.variantCopy table concrete := by
  rw [Synthesis.variantCopy, Synthesis.variantCopy, h.copyBody?_eq hv hv' hs hs' hroots,
    h.isValueName_eq hv hv' hn]

theorem helperBody_eq {type : String} (hn : type ∈ table.names) :
    found.helperBody other type = synthesis.helperBody table type := by
  simp only [Synthesis.helperBody, h.resolve_eq hv hv' hn, h.copyBody?_eq hv hv' hs hs' hroots]

/-- A finite value is duplicated alike when the bounds on the depth are both enough. -/
theorem copyWithin_agrees {depth first second : Nat} {how : ElementCopy}
    (hc : heap.contentWithin depth value = some content)
    (ha : ∀ a ∈ heap.storage value, a < heap.size) (hfirst : depth ≤ first)
    (hsecond : depth ≤ second) (hslots : content.SlotsAmong (· ∈ table.names))
    (hhelper : ∀ helper, how.helper? = some helper → helper ∈ table.names) :
    Agrees heap (synthesis.copyWithin table first how value)
      (found.copyWithin other second how value) := by
  induction depth generalizing first second how value content with
  | zero => simp [Heap.contentWithin] at hc
  | succ depth ih =>
    obtain ⟨first, rfl⟩ := Nat.exists_eq_add_one_of_ne_zero (Nat.ne_zero_of_lt hfirst)
    obtain ⟨second, rfl⟩ := Nat.exists_eq_add_one_of_ne_zero (Nat.ne_zero_of_lt hsecond)
    have hvalue : heap.Allocated value content := ⟨⟨_, hc⟩, ha⟩
    obtain ⟨hown, _⟩ := Heap.allocated_iff.mp hvalue
    obtain ⟨contents, hall, rfl⟩ := Heap.contentWithin_succ_iff.mp hc
    -- the parts are less deep, and their cells and interfaces are among those of the value
    have hparts : ∀ part ∈ heap.parts value, ∀ how,
        (∀ helper, how.helper? = some helper → helper ∈ table.names) →
          Agrees heap (synthesis.copyWithin table first how part)
            (found.copyWithin other second how part) := by
      intro part hp how hhelper
      obtain ⟨inner, hm, hi⟩ := exists_of_mem_left hall hp
      exact ih hi (fun a hcell => ha a (hvalue.stores.mem_storage_of_part hp hcell))
        (Nat.le_of_succ_le_succ hfirst) (Nat.le_of_succ_le_succ hsecond)
        (hslots.parts hall.length_eq inner hm) hhelper
    cases how with
    | assign => exact .pure _
    | external name =>
      refine fun before hb => ⟨rfl, fun copy after hrun => ?_⟩
      obtain ⟨_, _, hrun', hfresh⟩ := Synthesis.makes_detach hvalue.stores ha before hb
      cases hrun'.symm.trans hrun
      exact hb.trans hfresh.grows
    | capability name =>
      cases value with
      | unset => exact .pure _
      | slot concrete inner =>
        have hn : concrete ∈ table.names := by
          cases hslots with
          | slot hn _ => exact hn
        have hv' := h.variantCopy_eq hv hv' hs hs' hroots hn
        cases hvariant : synthesis.variantCopy table concrete with
        | error fault =>
          rw [Synthesis.copyWithin_slot_error hvariant,
            Synthesis.copyWithin_slot_error (hv'.trans hvariant)]
          exact .throw fault
        | ok how =>
          rw [Synthesis.copyWithin_slot hvariant, Synthesis.copyWithin_slot (hv'.trans hvariant)]
          refine (hparts inner (List.mem_singleton_self _) how ?_).bind fun _ => .pure _
          rcases Synthesis.variantCopy_eq_ok_iff.mp hvariant with ⟨_, rfl⟩ | ⟨_, _, rfl⟩
          · rintro _ ⟨⟩
            exact hn
          · rintro _ ⟨⟩
      | scalar | record | array | seq => exact .throw _
    | helper type =>
      have hbody := h.helperBody_eq hv hv' hs hs' hroots (hhelper type rfl)
      cases hb : synthesis.helperBody table type with
      | error fault =>
        rw [Synthesis.copyWithin_helper_error hb,
          Synthesis.copyWithin_helper_error (hbody.trans hb)]
        exact .throw fault
      | ok called =>
        obtain ⟨name, body⟩ := called
        rw [Synthesis.copyWithin_helper hb, Synthesis.copyWithin_helper (hbody.trans hb)]
        obtain ⟨_, _, hmade⟩ := Synthesis.helperBody_eq_ok_iff.mp hb
        have hclosed := copiesClosed_of_synthesize hs
        exact Synthesis.agrees_applyBody name hown fun how hhow part hp => hparts part hp how
          fun helper hhelper => hclosed.mem_names (hclosed.called name body hmade helper
            (List.mem_filterMap.mpr ⟨how, hhow, hhelper⟩))

theorem copy_eq {type : String} (ht : type ∈ table.names) (hc : heap.Stores value content)
    (ha : ∀ a ∈ heap.storage value, a < heap.size)
    (hslots : content.SlotsAmong (· ∈ table.names)) :
    (found.copy other type value).run heap = (synthesis.copy table type value).run heap := by
  have hle (table : Table) : heap.depthBound value ≤ heap.depthBound value * (table.size + 2) :=
    Nat.le_mul_of_pos_right _ (Nat.succ_pos _)
  have hhelper : ∀ helper, (ElementCopy.helper type).helper? = some helper →
      helper ∈ table.names := by
    rintro _ ⟨⟩
    exact ht
  exact (h.copyWithin_agrees hv hv' hs hs' hroots (Heap.content?_eq_some_iff.mpr hc) ha (hle table)
    (hle other) hslots hhelper heap (.refl heap)).1

end Table.Within

/-- What holds of finished runs over a table and over a larger one. -/
structure Synthesis.SameWithin (table other : Table) (synthesis found : Synthesis) : Prop where
  /-- The copy methods are the same, in the same order. -/
  copyMethods : found.copyMethods = synthesis.copyMethods
  /-- The same clone operations are called. -/
  capabilities : found.capabilities = synthesis.capabilities
  /-- The types of the smaller table have the same predicates. -/
  zeroBody? : ∀ type ∈ table.names, found.zeroBody? type = synthesis.zeroBody? type
  /-- The predicates give the same answers, whatever they are asked about. -/
  isZero : ∀ heap, ∀ type ∈ table.names, ∀ value,
    found.isZero other heap type value = synthesis.isZero table heap type value
  /-- A finite value whose interfaces hold types of the smaller table has the same copy, in the same
  cells, or none for the same reason. -/
  copy : ∀ (heap : Heap), ∀ type ∈ table.names, ∀ value content, heap.Stores value content →
    (∀ a ∈ heap.storage value, a < heap.size) → content.SlotsAmong (· ∈ table.names) →
      (found.copy other type value).run heap = (synthesis.copy table type value).run heap

namespace Table

/-- Types that are added to a table that passes its check, wherever they stand and whatever they
use, change nothing for the types that were there. -/
theorem sameWithin_of_synthesize {table other : Table} {language : Code.Language}
    (h : table.entries ⊆ other.entries) (hv : table.validate language = .ok ())
    (hv' : other.validate language = .ok ()) {config : Config} {roots : List String}
    (hroots : ∀ root ∈ roots, root ∈ table.names) {synthesis found : Synthesis}
    (hs : table.synthesize language config roots = .ok synthesis)
    (hs' : other.synthesize language config roots = .ok found) :
    synthesis.SameWithin table other found := by
  have h : table.Within other := h
  obtain ⟨hmethods, _, hcapabilities⟩ := h.copies_eq hv hv' hs hs' hroots
  exact ⟨hmethods, hcapabilities, fun _ hn => h.zeroBody?_eq hv hv' hs hs' hn,
    fun heap _ ht value => h.isZeroWithin_eq hv hv' hs hs' heap _ ht value,
    fun _ _ ht _ _ hc ha hslots => h.copy_eq hv hv' hs hs' hroots ht hc ha hslots⟩

/-- The types of the ring among others, one of which holds rings. -/
def jewelry : Table where
  entries := [("Box", .type (.record [("rings", .named "Rings"), ("label", .named "Label")])),
    ("Label", .type (.fixed 4 (.named "i32"))),
    ("i32", .type (.builtin { zero := some "0" })), ("Drawable", .capability),
    ("Nodes", .type (.dynamic (.named "Link"))), ("Link", .aliasOf "Node"),
    ("Node", .type (.record [("label", .named "i32"), ("shape", .named "Drawable"),
      ("next", .named "Nodes")])),
    ("Rings", .type (.dynamic (.named "Ring"))),
    ("Pair", .type (.fixed 2 (.named "i32"))),
    ("Ring", .type (.record [("first", .named "Node"), ("ends", .named "Pair")]))]
  distinct_names := by decide
  distinct_fields := by
    simp [Definition.Distinct, Definition.capability, Shape.Distinct, Ref.FieldsDistinct,
      Ref.Distinct]

/-- The run over the larger table makes predicates for the boxes and their labels besides. -/
theorem sameWithin_ring :
    ∃ synthesis found, ring.synthesize Reader.language {} ["Ring"] = .ok synthesis ∧
      jewelry.synthesize Reader.language {} ["Ring"] = .ok found ∧
      (found.zeroBody? "Box").isSome ∧ synthesis.zeroBody? "Box" = none ∧
      synthesis.SameWithin ring jewelry found := by
  have h : ring.entries ⊆ jewelry.entries := by
    intro entry he
    simp only [ring, List.mem_cons, List.not_mem_nil, or_false] at he
    rcases he with rfl | rfl | rfl | rfl | rfl | rfl | rfl <;> simp [jewelry]
  have hroots : ∀ root ∈ ["Ring"], root ∈ ring.names := by decide
  obtain ⟨found, hs', hsome⟩ : ∃ found, jewelry.synthesize Reader.language {} ["Ring"] = .ok found ∧
      (found.zeroBody? "Box").isSome := ⟨_, rfl, rfl⟩
  exact ⟨ringMethods, found, synthesize_ring, hs', hsome, rfl,
    sameWithin_of_synthesize h validate_ring (by decide +kernel) hroots synthesize_ring hs'⟩

end Table

end CopySynth
