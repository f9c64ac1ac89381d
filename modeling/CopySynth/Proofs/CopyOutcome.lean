import CopySynth.Proofs.DeepCopy

/-!
# Which finite values can be copied

A copy takes the constituents of a value one after the other and stops at the first that cannot be
duplicated. `CopyableWithin` says in no order what the constituents have to be. A finite value is
copied exactly when it is copyable, whether or not it has the shape of the type, and its copy has
the same content.
-/

namespace CopySynth

theorem run_bind_eq_error {α β : Type} {first : Alloc α} {second : α → Alloc β} {before : Heap}
    {fault : GenerationError} (h : first.run before = .error fault) :
    (first >>= second).run before = .error fault := by
  rw [StateT.run_bind, h]
  rfl

/-! ## Allocated values -/

/-- A value has this content, and all its cells are allocated. -/
structure Heap.Allocated (heap : Heap) (value : Value) (content : Content) : Prop where
  stores : heap.Stores value content
  cells : ∀ a ∈ heap.storage value, a < heap.size

namespace Heap

variable {heap before after : Heap} {value : Value} {content : Content}

theorem Allocated.grows (h : before.Allocated value content) (hg : before.Grows after) :
    after.Allocated value content := by
  obtain ⟨hstores, hstorage⟩ := hg.stores h.stores h.cells
  exact ⟨hstores, fun a ha => (h.cells a (hstorage ▸ ha)).trans_le hg.size_le⟩

theorem Fresh.allocated (h : before.Fresh content value after) : after.Allocated value content :=
  ⟨h.stores, fun a ha => (h.cells a ha).2⟩

/-- A value is allocated when its own cell and its parts are. -/
theorem allocated_iff :
    heap.Allocated value content ↔ (∀ a ∈ value.address?, a < heap.size) ∧
      ∃ contents, List.Forall₂ heap.Allocated (heap.parts value) contents ∧
        content = value.assemble contents := by
  constructor
  · rintro ⟨hs, ha⟩
    obtain ⟨contents, hall, rfl⟩ := stores_iff.mp hs
    refine ⟨fun a hm => ha a (hs.mem_storage_of_address hm), contents, ?_, rfl⟩
    exact forall₂_imp_of_mem hall fun part hp inner _ hi =>
      ⟨hi, fun a hm => ha a (hs.mem_storage_of_part hp hm)⟩
  · rintro ⟨hown, contents, hall, rfl⟩
    have hs : heap.Stores value (value.assemble contents) :=
      stores_iff.mpr ⟨contents, hall.imp fun _ _ h => h.stores, rfl⟩
    refine ⟨hs, fun a ha => ?_⟩
    rw [hs.storage_eq] at ha
    rcases List.mem_append.mp ha with ha | ha
    · exact hown a (Option.mem_toList.mp ha)
    · obtain ⟨part, hp, ha⟩ := List.mem_flatMap.mp ha
      obtain ⟨_, _, h⟩ := exists_of_mem_left hall hp
      exact h.cells a ha

/-- A new cell holds its elements. -/
theorem allocated_alloc {items : List Value} {contents : List Content}
    (h : List.Forall₂ heap.Allocated items contents) :
    (heap.alloc items).2.Allocated (.seq heap.size) (.seq contents) := by
  refine allocated_iff.mpr ⟨?_, contents, ?_, rfl⟩
  · rintro _ ⟨⟩
    simp
  · rw [parts, read_alloc_new]
    exact h.imp fun _ _ h => h.grows (.alloc heap items)

/-- The field that is found under a name keeps its place when it is replaced in a record with the
same names. -/
theorem exists_content_of_get? {Q : Value → Content → Prop} {fields : Fields Value}
    {contents : List Content} (h : List.Forall₂ Q (fields.map Prod.snd) contents) {name : String}
    {part : Value} (hg : fields.get? name = some part) :
    ∃ content, Q part content ∧ ∀ {R : Value → Content → Prop} {copy : Fields Value} {new : Value},
      copy.names = fields.names → List.Forall₂ R (copy.map Prod.snd) contents → R new content →
        (copy.put name new).names = fields.names ∧
          List.Forall₂ R ((copy.put name new).map Prod.snd) contents := by
  induction fields generalizing contents with
  | nil => cases hg
  | cons field fields ih =>
    obtain ⟨first, value⟩ := field
    obtain ⟨content, contents, hq, hrest, rfl⟩ := List.forall₂_cons_left_iff.mp h
    rw [Fields.get?_cons] at hg
    split at hg
    · rename_i hname
      cases hg
      refine ⟨content, hq, fun {R copy new} hn hall hr => ?_⟩
      cases copy with
      | nil => cases hn
      | cons other copy =>
        obtain ⟨hn, hns⟩ := List.cons.inj hn
        cases hall with
        | cons _ hall =>
          rw [Fields.put, if_pos (hn.trans hname.symm)]
          refine ⟨?_, .cons hr hall⟩
          rw [Fields.names_cons, Fields.names_cons, hname]
          exact congrArg _ hns
    · rename_i hname
      obtain ⟨found, hfound, hput⟩ := ih hrest hg
      refine ⟨found, hfound, fun {R copy new} hn hall hr => ?_⟩
      cases copy with
      | nil => cases hn
      | cons other copy =>
        obtain ⟨hn, hns⟩ := List.cons.inj hn
        cases hall with
        | cons hfirst hall =>
          obtain ⟨hnames, hall⟩ := hput hns hall hr
          rw [Fields.put, if_neg fun he => hname (he.symm.trans hn)]
          exact ⟨by simp [hnames, hn], .cons hfirst hall⟩

end Heap

/-! ## Steps that succeed under a condition -/

/-- From any heap grown out of a base, a step makes a value with this content if a condition holds,
and fails otherwise. -/
def Decides (base : Heap) (condition : Prop) (content : Content) (step : Alloc Value) : Prop :=
  ∀ before, base.Grows before →
    (condition ∧ ∃ value after, step.run before = .ok (value, after) ∧ before.Grows after ∧
      after.Allocated value content) ∨
    (¬ condition ∧ ∃ fault, step.run before = .error fault)

variable {base : Heap}

theorem Decides.ok {condition : Prop} {content : Content} {step : Alloc Value} (hc : condition)
    (h : ∀ before, base.Grows before → ∃ value after, step.run before = .ok (value, after) ∧
      before.Grows after ∧ after.Allocated value content) : Decides base condition content step :=
  fun before hb => .inl ⟨hc, h before hb⟩

theorem Decides.fails {condition : Prop} {content : Content} {step : Alloc Value}
    (hc : ¬ condition) (h : ∀ before, ∃ fault, step.run before = .error fault) :
    Decides base condition content step :=
  fun before _ => .inr ⟨hc, h before⟩

namespace Decides

variable {condition : Prop} {content : Content} {step : Alloc Value} {before : Heap}

theorem exists_ok_iff (h : Decides base condition content step) (hb : base.Grows before) :
    (∃ result, step.run before = .ok result) ↔ condition := by
  rcases h before hb with ⟨hc, value, after, hrun, _⟩ | ⟨hc, fault, hrun⟩
  · exact ⟨fun _ => hc, fun _ => ⟨_, hrun⟩⟩
  · refine ⟨fun ⟨result, hr⟩ => ?_, fun hp => absurd hp hc⟩
    rw [hrun] at hr
    cases hr

theorem content?_eq (h : Decides base condition content step) (hb : base.Grows before)
    {result : Value × Heap} (hr : step.run before = .ok result) :
    result.2.content? result.1 = some content := by
  rcases h before hb with ⟨_, value, after, hrun, _, hvalue⟩ | ⟨_, fault, hrun⟩
  · rw [hrun] at hr
    cases hr
    exact Heap.content?_eq_some_iff.mpr hvalue.stores
  · rw [hrun] at hr
    cases hr

end Decides

/-- Steps along a list succeed if each does. -/
theorem mapM_decides {step : Value → Alloc Value} {P : Value → Prop} {items : List Value}
    {contents : List Content}
    (h : List.Forall₂ (fun item content => Decides base (P item) content (step item))
      items contents) {before : Heap} (hb : base.Grows before) :
    ((∀ item ∈ items, P item) ∧ ∃ values after, (items.mapM step).run before = .ok (values, after) ∧
      before.Grows after ∧ List.Forall₂ after.Allocated values contents) ∨
    (¬ (∀ item ∈ items, P item) ∧ ∃ fault, (items.mapM step).run before = .error fault) := by
  induction h generalizing before with
  | nil => exact .inl ⟨by simp, [], before, rfl, .refl before, .nil⟩
  | @cons item content items contents hstep _ ih =>
    rw [List.mapM_cons, List.forall_mem_cons]
    rcases hstep before hb with ⟨hp, value, mid, hrun, hgrows, hvalue⟩ | ⟨hp, fault, hrun⟩
    · rcases ih (hb.trans hgrows) with ⟨hps, values, after, hruns, hmore, hvalues⟩ |
        ⟨hps, fault, hruns⟩
      · exact .inl ⟨⟨hp, hps⟩, _, after, run_bind_eq_ok hrun (run_bind_eq_ok hruns rfl),
          hgrows.trans hmore, .cons (hvalue.grows hmore) hvalues⟩
      · exact .inr ⟨fun h => hps h.2, fault,
          (run_bind_of_ok hrun).trans (run_bind_eq_error hruns)⟩
    · exact .inr ⟨fun h => hp h.1, fault, run_bind_eq_error hrun⟩

/-- Steps that override the fields of a record one by one succeed if each field that is overridden
is there and its step succeeds. -/
theorem foldlM_decides {step : ElementCopy → Value → Alloc Value}
    {P : ElementCopy → Value → Prop} (name : String) {fields : Fields Value}
    {contents : List Content}
    (h : List.Forall₂ (fun part content =>
      ∀ how, Decides base (P how part) content (step how part)) (fields.map Prod.snd) contents)
    (overrides : List (String × ElementCopy)) {copy : Fields Value} {before : Heap}
    (hb : base.Grows before) (hn : copy.names = fields.names)
    (hcopy : List.Forall₂ before.Allocated (copy.map Prod.snd) contents) :
    let run := (overrides.foldlM (fun (copy : Fields Value) (field, element) => do
        match Fields.get? fields field with
        | none => throw (GenerationError.evaluation (.missingField name field))
        | some part => return copy.put field (← step element part)) copy).run before
    ((∀ field ∈ overrides, ∃ part, fields.get? field.1 = some part ∧ P field.2 part) ∧
      ∃ result after, run = .ok (result, after) ∧ before.Grows after ∧
        result.names = fields.names ∧ List.Forall₂ after.Allocated (result.map Prod.snd) contents) ∨
    (¬ (∀ field ∈ overrides, ∃ part, fields.get? field.1 = some part ∧ P field.2 part) ∧
      ∃ fault, run = .error fault) := by
  induction overrides generalizing copy before with
  | nil => exact .inl ⟨by simp, copy, before, rfl, .refl before, hn, hcopy⟩
  | cons field overrides ih =>
    dsimp only
    rw [List.foldlM_cons, List.forall_mem_cons]
    cases hg : fields.get? field.1 with
    | none => exact .inr ⟨by simp, _, run_bind_eq_error rfl⟩
    | some part =>
      obtain ⟨content, hstep, hput⟩ := Heap.exists_content_of_get? h hg
      dsimp only
      rcases hstep field.2 before hb with ⟨hp, value, mid, hrun, hgrows, hvalue⟩ | ⟨hp, fault, hrun⟩
      · obtain ⟨hnames, hall⟩ := hput hn (hcopy.imp fun _ _ h => h.grows hgrows) hvalue
        rcases ih (hb.trans hgrows) hnames hall with ⟨hps, result, after, hruns, hmore, hresult⟩ |
          ⟨hps, fault, hruns⟩
        · exact .inl ⟨⟨⟨part, rfl, hp⟩, hps⟩, result, after,
            run_bind_eq_ok (run_bind_eq_ok hrun rfl) hruns, hgrows.trans hmore, hresult⟩
        · exact .inr ⟨fun h => hps h.2, fault,
            (run_bind_of_ok (run_bind_eq_ok hrun rfl)).trans hruns⟩
      · refine .inr ⟨fun h => ?_, fault, run_bind_eq_error (run_bind_eq_error hrun)⟩
        obtain ⟨_, ⟨⟩, hp'⟩ := h.1
        exact hp hp'

/-! ## Copies -/

/-- A body applies to a value: there is a part for everything that is overridden, and each can be
duplicated. -/
def CopyBody.Applies (P : ElementCopy → Value → Prop) (heap : Heap) : CopyBody → Value → Prop
  | .trivial, _ | .shallow, _ => True
  | .dynamic element, .seq address => ∀ item ∈ heap.read address, P element item
  | .fixed _ element, .array items => ∀ item ∈ items, P element item
  | .record copies, .record fields => ∀ field ∈ (CopyBody.record copies).overrides,
      ∃ part, Fields.get? fields field.1 = some part ∧ P field.2 part
  | _, _ => False

namespace Synthesis

variable {synthesis : Synthesis} {table : Table}

/-- A value that is at most this deep can be duplicated in this way. -/
def CopyableWithin (synthesis : Synthesis) (table : Table) (heap : Heap) :
    Nat → ElementCopy → Value → Prop
  | 0, _, _ => False
  | _ + 1, .assign, _ | _ + 1, .external _, _ | _ + 1, .capability _, .unset => True
  | depth + 1, .capability _, .slot concrete inner =>
    ∃ how, synthesis.variantCopy table concrete = .ok how ∧
      synthesis.CopyableWithin table heap depth how inner
  | _ + 1, .capability _, _ => False
  | depth + 1, .helper type, value =>
    ∃ name shape body, table.resolve type "evaluation" = .ok (name, shape) ∧
      synthesis.copyBody? name = some body ∧
      body.Applies (synthesis.CopyableWithin table heap depth) heap value

/-- A body that applies makes a value with the same content; one that does not fails. -/
theorem applyBody_decides {step : ElementCopy → Value → Alloc Value}
    {P : ElementCopy → Value → Prop} (name : String) (body : CopyBody) {value : Value}
    {contents : List Content} (ha : ∀ a ∈ value.address?, a < base.size)
    (h : List.Forall₂ (fun part content => base.Allocated part content ∧
      ∀ how, Decides base (P how part) content (step how part)) (base.parts value) contents) :
    Decides base (body.Applies P base value) (value.assemble contents)
      (applyBody step name body value) := by
  have hvalue : base.Allocated value (value.assemble contents) :=
    Heap.allocated_iff.mpr ⟨ha, contents, h.imp fun _ _ h => h.1, rfl⟩
  have hplain : Decides base True (value.assemble contents) (pure value) :=
    .ok trivial fun before hb => ⟨value, before, rfl, .refl before, hvalue.grows hb⟩
  have hsteps how := h.imp fun _ _ h => h.2 how
  cases body with
  | trivial | shallow => exact hplain
  | dynamic element =>
    cases value with
    | seq address =>
      intro before hb
      have hread : before.read address = base.read address := hb.read_eq address (ha address rfl)
      rcases mapM_decides (hsteps element) hb with ⟨hp, values, after, hrun, hgrows, hall⟩ |
        ⟨hp, fault, hrun⟩
      · rw [Heap.parts, ← hread] at hrun
        exact .inl ⟨hp, _, _, run_bind_eq_ok rfl (run_bind_eq_ok hrun rfl),
          hgrows.trans (.alloc after values), Heap.allocated_alloc hall⟩
      · rw [Heap.parts, ← hread] at hrun
        exact .inr ⟨hp, fault, (run_bind_of_ok rfl).trans (run_bind_eq_error hrun)⟩
    | scalar | record | array | unset | slot => exact .fails id fun _ => ⟨_, rfl⟩
  | fixed length element =>
    cases value with
    | array items =>
      intro before hb
      rcases mapM_decides (hsteps element) hb with ⟨hp, values, after, hrun, hgrows, hall⟩ |
        ⟨hp, fault, hrun⟩
      · exact .inl ⟨hp, _, after, run_bind_eq_ok hrun rfl, hgrows,
          Heap.allocated_iff.mpr ⟨by simp [Value.address?], contents, hall, rfl⟩⟩
      · exact .inr ⟨hp, fault, run_bind_eq_error hrun⟩
    | scalar | record | seq | unset | slot => exact .fails id fun _ => ⟨_, rfl⟩
  | record copies =>
    cases value with
    | record fields =>
      intro before hb
      have hstart : List.Forall₂ before.Allocated (fields.map Prod.snd) contents :=
        h.imp fun _ _ h => h.1.grows hb
      rcases foldlM_decides name (h.imp fun _ _ h => h.2) (CopyBody.record copies).overrides hb rfl
        hstart with ⟨hp, result, after, hrun, hgrows, hnames, hall⟩ | ⟨hp, fault, hrun⟩
      · exact .inl ⟨hp, .record result, after, run_bind_eq_ok hrun rfl, hgrows,
          Heap.allocated_iff.mpr ⟨by simp [Value.address?], contents, hall, by
            rw [Value.assemble, Value.assemble, hnames]⟩⟩
      · exact .inr ⟨hp, fault, run_bind_eq_error hrun⟩
    | scalar | array | seq | unset | slot => exact .fails id fun _ => ⟨_, rfl⟩

section Parts

variable {depth : Nat}

/-- A value behind an interface is duplicated when there is a way for its concrete type that
applies. -/
theorem slot_decides {name concrete : String} {inner : Value} {content : Content}
    (h : ∀ how, Decides base (synthesis.CopyableWithin table base depth how inner) content
      (synthesis.copyWithin table depth how inner)) :
    Decides base
      (synthesis.CopyableWithin table base (depth + 1) (.capability name) (.slot concrete inner))
      (.slot concrete content)
      (synthesis.copyWithin table (depth + 1) (.capability name) (.slot concrete inner)) := by
  cases hv : synthesis.variantCopy table concrete with
  | error fault =>
    rw [copyWithin_slot_error hv]
    refine .fails ?_ fun before => ⟨fault, rfl⟩
    rintro ⟨how, hok, _⟩
    cases hv.symm.trans hok
  | ok how =>
    rw [copyWithin_slot hv]
    intro before hb
    rcases h how before hb with ⟨hp, copy, after, hrun, hgrows, hcopy⟩ | ⟨hp, fault, hrun⟩
    · exact .inl ⟨⟨how, hv, hp⟩, .slot concrete copy, after, run_bind_eq_ok hrun rfl, hgrows,
        Heap.allocated_iff.mpr ⟨by simp [Value.address?], [content], .cons hcopy .nil, rfl⟩⟩
    · refine .inr ⟨?_, fault, run_bind_eq_error hrun⟩
      rintro ⟨how', hok, hp'⟩
      cases hv.symm.trans hok
      exact hp hp'

/-- The helper of a name duplicates what the body of its canonical type applies to. -/
theorem helper_decides {type : String} {value : Value} {contents : List Content}
    (ha : ∀ a ∈ value.address?, a < base.size)
    (h : List.Forall₂ (fun part content => base.Allocated part content ∧
      ∀ how, Decides base (synthesis.CopyableWithin table base depth how part) content
        (synthesis.copyWithin table depth how part)) (base.parts value) contents) :
    Decides base (synthesis.CopyableWithin table base (depth + 1) (.helper type) value)
      (value.assemble contents) (synthesis.copyWithin table (depth + 1) (.helper type) value) := by
  cases hb : synthesis.helperBody table type with
  | error fault =>
    rw [copyWithin_helper_error hb]
    refine .fails ?_ fun before => ⟨fault, rfl⟩
    rintro ⟨name, shape, body, hr, hbody, _⟩
    cases hb.symm.trans (helperBody_eq_ok_iff.mpr ⟨shape, hr, hbody⟩)
  | ok found =>
    obtain ⟨name, body⟩ := found
    have hiff : synthesis.CopyableWithin table base (depth + 1) (.helper type) value ↔
        body.Applies (synthesis.CopyableWithin table base depth) base value := by
      constructor
      · rintro ⟨_, shape, _, hr, hbody, happlies⟩
        cases hb.symm.trans (helperBody_eq_ok_iff.mpr ⟨shape, hr, hbody⟩)
        exact happlies
      · intro happlies
        obtain ⟨shape, hr, hbody⟩ := helperBody_eq_ok_iff.mp hb
        exact ⟨name, shape, body, hr, hbody, happlies⟩
    rw [copyWithin_helper hb, hiff]
    exact applyBody_decides name body ha h

end Parts

/-- A finite value is duplicated exactly when it can be, and its duplicate has the same content. -/
theorem copyWithin_decides {depth : Nat} {how : ElementCopy} {value : Value} {content : Content}
    (hc : base.contentWithin depth value = some content)
    (ha : ∀ a ∈ base.storage value, a < base.size) :
    Decides base (synthesis.CopyableWithin table base depth how value) content
      (synthesis.copyWithin table depth how value) := by
  induction depth generalizing how value content with
  | zero => simp [Heap.contentWithin] at hc
  | succ depth ih =>
    have hvalue : base.Allocated value content := ⟨⟨_, hc⟩, ha⟩
    obtain ⟨hown, _⟩ := Heap.allocated_iff.mp hvalue
    obtain ⟨contents, hall, rfl⟩ := Heap.contentWithin_succ_iff.mp hc
    -- the parts are less deep, and their cells are among those of the value
    have hparts : List.Forall₂ (fun part content => base.Allocated part content ∧
        ∀ how, Decides base (synthesis.CopyableWithin table base depth how part) content
          (synthesis.copyWithin table depth how part)) (base.parts value) contents := by
      refine forall₂_imp_of_mem hall fun part hp inner _ hi => ?_
      have hcells : ∀ a ∈ base.storage part, a < base.size :=
        fun a hm => ha a (hvalue.stores.mem_storage_of_part hp hm)
      exact ⟨⟨⟨depth, hi⟩, hcells⟩, fun how => ih hi hcells⟩
    cases how with
    | assign => exact .ok trivial fun before hb => ⟨_, before, rfl, .refl before, hvalue.grows hb⟩
    | external =>
      refine .ok trivial fun before hb => ?_
      obtain ⟨copy, after, hrun, hfresh⟩ := makes_detach hvalue.stores ha before hb
      exact ⟨copy, after, hrun, hfresh.grows, hfresh.allocated⟩
    | capability name =>
      cases value with
      | unset => exact .ok trivial fun before hb => ⟨_, before, rfl, .refl before, hvalue.grows hb⟩
      | slot concrete inner =>
        obtain ⟨content, _, hinner, hnil, rfl⟩ := List.forall₂_cons_left_iff.mp hparts
        cases hnil
        exact slot_decides hinner.2
      | scalar | record | array | seq => exact .fails id fun _ => ⟨_, rfl⟩
    | helper type => exact helper_decides hown hparts

end Synthesis

end CopySynth
