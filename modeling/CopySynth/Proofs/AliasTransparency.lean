import CopySynth.Emission.Source
import CopySynth.Proofs.Renaming
import CopySynth.Proofs.Requests
import CopySynth.Proofs.UnnamedStorage

/-!
# Aliases are transparent

A field or an element may refer to its type by any of the aliases of the type. Whether it does or
uses the canonical name makes no difference to a run: all that a run asks a table about a reference
has the same answer for both, so each step of the two runs is the same.
-/

namespace CopySynth

namespace Table

/-- The canonical name behind a name; a name that leads nowhere stands for itself. -/
def canonicalOf (table : Table) (name : String) : String := (table.canonical? name).getD name

/-- The table with canonical names in all fields and elements. -/
def canonicalized (table : Table) : Table := table.renamed table.canonicalOf

@[simp] theorem names_canonicalized (table : Table) : table.canonicalized.names = table.names :=
  table.names_renamed table.canonicalOf

@[simp] theorem size_canonicalized (table : Table) : table.canonicalized.size = table.size :=
  table.size_renamed table.canonicalOf

theorem get?_canonicalized (table : Table) (name : String) :
    table.canonicalized.get? name =
      (table.get? name).map (Definition.rename table.canonicalOf) :=
  table.get?_renamed table.canonicalOf name

theorem get?_canonicalized_eq_some_iff {table : Table} {name : String} {type : Definition} :
    table.canonicalized.get? name = some type ↔
      ∃ old, table.get? name = some old ∧ old.rename table.canonicalOf = type := by
  rw [get?_canonicalized, Option.map_eq_some_iff]

theorem resolve_canonicalized (table : Table) (name context : String) :
    table.canonicalized.resolve name context = (table.resolve name context).map
      fun found => (found.1, found.2.rename table.canonicalOf) :=
  table.resolve_renamed table.canonicalOf name context

variable {table : Table} {language : Code.Language} {name canonical context : String}
  {shape : Shape}

/-! ## Where canonical names lead -/

theorem canonicalOf_of_resolve (h : table.resolve name context = .ok (canonical, shape)) :
    table.canonicalOf name = canonical := by
  rw [canonicalOf, canonical?_of_resolve h]
  rfl

/-- A canonical name is its own. -/
theorem canonical?_canonicalOf (table : Table) (name : String) :
    table.canonical? (table.canonicalOf name) = table.canonical? name := by
  cases h : table.canonical? name with
  | none => rw [canonicalOf, h, Option.getD_none, h]
  | some canonical =>
    rw [canonicalOf, h, Option.getD_some]
    unfold canonical? at h
    split at h
    · rename_i shape hr
      cases h
      exact canonical?_of_resolve (resolve_of_get? "" (get?_of_resolve hr))
    · cases h

theorem canonical?_canonicalized (table : Table) (name : String) :
    table.canonicalized.canonical? name = table.canonical? name := by
  rw [canonical?, canonical?, resolve_canonicalized]
  cases table.resolve name "" <;> rfl

/-- A name and its canonical name lead to the same type, before and after the replacement. -/
theorem resolve_canonicalOf (h : table.resolve name context = .ok (canonical, shape)) :
    table.canonicalized.resolve (table.canonicalOf name) context =
      .ok (canonical, shape.rename table.canonicalOf) := by
  rw [canonicalOf_of_resolve h, resolve_canonicalized, resolve_of_get? _ (get?_of_resolve h)]
  rfl

/-- A type owns storage under all its names. -/
theorem LeadsTo.owning_iff (h : table.LeadsTo name canonical shape) :
    table.Owning name ↔ table.Owning canonical := by
  induction h with
  | type => exact Iff.rfl
  | @aliased name target canonical shape hg _ ih =>
    rw [← ih]
    constructor
    · rintro (⟨hg', ho⟩ | ⟨⟨type, hg', hh⟩, hp⟩)
      · rw [hg] at hg'
        cases hg'
        cases ho
      · rw [hg] at hg'
        cases hg'
        cases hh
        exact hp
    · exact .part ⟨_, hg, .target⟩

theorem LeadsTo.renamed (f : String → String) (h : table.LeadsTo name canonical shape) :
    (table.renamed f).LeadsTo name canonical (shape.rename f) := by
  induction h with
  | type hg => exact .type (by rw [get?_renamed, hg]; rfl)
  | aliased hg _ ih => exact .aliased (by rw [get?_renamed, hg]; rfl) ih

/-! ## Walks along constituents -/

theorem slotHelpers_map {other : Table} {owner : String} {change : Ref → Ref}
    {slots : List (String × Ref)} (h : ∀ slot ∈ slots,
      other.elementCopy owner slot.1 (change slot.2) = table.elementCopy owner slot.1 slot.2) :
    other.slotHelpers owner (slots.map fun slot => (slot.1, change slot.2)) =
      table.slotHelpers owner slots := by
  induction slots with
  | nil => rfl
  | cons slot rest ih =>
    obtain ⟨hslot, hrest⟩ := List.forall_mem_cons.mp h
    rw [List.map_cons, slotHelpers, slotHelpers, hslot, ih hrest]

theorem slotDelegates_map {other : Table} {owner : String} {change : Ref → Ref}
    {slots : List (String × Ref)} (h : ∀ slot ∈ slots,
      other.zeroTest owner slot.1 (change slot.2) = table.zeroTest owner slot.1 slot.2) :
    other.slotDelegates owner (slots.map fun slot => (slot.1, change slot.2)) =
      table.slotDelegates owner slots := by
  induction slots with
  | nil => rfl
  | cons slot rest ih =>
    obtain ⟨hslot, hrest⟩ := List.forall_mem_cons.mp h
    rw [List.map_cons, slotDelegates, slotDelegates, hslot, ih hrest]

/-! ## The check -/

section Sound

variable (hv : table.validate language = .ok ())
include hv

/-- In a table that passes its check the canonical name of a name of the table is one too. -/
theorem leadsTo_canonicalOf (hn : name ∈ table.names) :
    ∃ shape, table.LeadsTo name (table.canonicalOf name) shape := by
  obtain ⟨canonical, shape, hr⟩ := exists_resolve_of_validate hv hn ""
  rw [canonicalOf_of_resolve hr]
  exact ⟨shape, leadsTo_of_resolve hr⟩

theorem leadsTo_of_holds {owner part : String} (h : table.Holds owner part) :
    ∃ shape, table.LeadsTo part (table.canonicalOf part) shape :=
  leadsTo_canonicalOf hv ((validate_eq_ok_iff.mp hv).1.of_holds h)

theorem canonicalOf_mem_names (hn : name ∈ table.names) : table.canonicalOf name ∈ table.names := by
  obtain ⟨shape, hl⟩ := leadsTo_canonicalOf hv hn
  exact mem_names_of_get? hl.get?

theorem closed_canonicalized : table.canonicalized.Closed := by
  intro owner _ name hg' hu
  obtain ⟨type, hg, rfl⟩ := get?_canonicalized_eq_some_iff.mp hg'
  rw [names_canonicalized]
  have hclosed := (validate_eq_ok_iff.mp hv).1
  cases type with
  | aliasOf target => exact hclosed owner _ name hg hu
  | type shape =>
    obtain ⟨used, hused, rfl⟩ := (Definition.uses_rename _).mp hu
    exact canonicalOf_mem_names hv (hclosed owner _ used hg hused)

/-- What a type holds under canonical names it holds already, directly or through aliases. -/
theorem transGen_of_holds {owner part : String} (h : table.canonicalized.Holds owner part) :
    Relation.TransGen table.Holds owner part := by
  obtain ⟨_, hg', hh⟩ := h
  obtain ⟨type, hg, rfl⟩ := get?_canonicalized_eq_some_iff.mp hg'
  cases type with
  | aliasOf target => exact .single ⟨_, hg, hh⟩
  | type shape =>
    obtain ⟨used, hused, rfl⟩ := (Definition.holds_rename _).mp hh
    obtain ⟨shape, hl⟩ := leadsTo_of_holds hv ⟨_, hg, hused⟩
    exact Relation.TransGen.head' ⟨_, hg, hused⟩ hl.reaches

theorem validate_canonicalized : table.canonicalized.validate language = .ok () := by
  obtain ⟨_, hi, ha⟩ := validate_eq_ok_iff.mp hv
  refine validate_eq_ok_iff.mpr ⟨closed_canonicalized hv, ?_, fun name hr => ha name ?_⟩
  · rw [firstMisnamed, canonicalized, identifierNames_renamed]
    exact hi
  · exact Relation.TransGen.closed (fun _ _ => transGen_of_holds hv) name name hr

/-! ## Storage -/

theorem owning_canonicalized_iff : table.canonicalized.Owning name ↔ table.Owning name := by
  constructor
  · intro h
    induction h with
    | owner hg' ho =>
      obtain ⟨type, hg, rfl⟩ := get?_canonicalized_eq_some_iff.mp hg'
      exact .owner hg (by rw [Definition.ownsStorage_rename] at ho; exact ho)
    | @part name part hh _ ih =>
      obtain ⟨_, hg', hh⟩ := hh
      obtain ⟨type, hg, rfl⟩ := get?_canonicalized_eq_some_iff.mp hg'
      cases type with
      | aliasOf target => exact .part ⟨_, hg, hh⟩ ih
      | type shape =>
        obtain ⟨used, hused, rfl⟩ := (Definition.holds_rename _).mp hh
        -- the part that the type holds leads to the canonical one
        obtain ⟨shape, hl⟩ := leadsTo_of_holds hv ⟨_, hg, hused⟩
        exact .part ⟨_, hg, hused⟩ (hl.owning_iff.mpr ih)
  · intro h
    induction h with
    | @owner name type hg ho =>
      refine .owner (get?_canonicalized_eq_some_iff.mpr ⟨type, hg, rfl⟩) ?_
      rw [Definition.ownsStorage_rename]
      exact ho
    | @part name part hh _ ih =>
      obtain ⟨type, hg, hh⟩ := hh
      have hg' := get?_canonicalized_eq_some_iff.mpr ⟨type, hg, rfl⟩
      cases type with
      | aliasOf target => exact .part ⟨_, hg', hh⟩ ih
      | type shape =>
        obtain ⟨shape, hl⟩ := leadsTo_of_holds hv ⟨_, hg, hh⟩
        refine .part ⟨_, hg', (Definition.holds_rename _).mpr ⟨part, hh, rfl⟩⟩ ?_
        -- aliases lead in the new table where they led in the old one
        exact (hl.renamed _).owning_iff.mp ih

theorem owningRef_canonicalized_iff {ref : Ref} (hr : ∀ name, ref.Uses name → name ∈ table.names) :
    table.canonicalized.OwningRef (ref.rename table.canonicalOf) ↔ table.OwningRef ref := by
  have hiff : ∀ used, ref.Uses used →
      (table.canonicalized.Owning (table.canonicalOf used) ↔ table.Owning used) := by
    intro used hu
    obtain ⟨shape, hl⟩ := leadsTo_canonicalOf hv (hr used hu)
    rw [owning_canonicalized_iff hv, hl.owning_iff]
  constructor
  · rintro ⟨_, hu, ho⟩
    obtain ⟨used, hused, rfl⟩ := (ref.uses_rename _).mp hu
    exact ⟨used, hused, (hiff used hused).mp ho⟩
  · rintro ⟨used, hu, ho⟩
    exact ⟨_, (ref.uses_rename _).mpr ⟨used, hu, rfl⟩, (hiff used hu).mpr ho⟩

theorem isValue_canonicalized {ref : Ref} (hr : ∀ name, ref.Uses name → name ∈ table.names)
    (context : String) :
    table.canonicalized.isValue (ref.rename table.canonicalOf) context =
      table.isValue ref context := by
  have hr' : ∀ name, (ref.rename table.canonicalOf).Uses name →
      name ∈ table.canonicalized.names := by
    intro name hu
    obtain ⟨used, hused, rfl⟩ := (ref.uses_rename _).mp hu
    rw [names_canonicalized]
    exact canonicalOf_mem_names hv (hr used hused)
  exact isValue_congr hv (validate_canonicalized hv) hr hr' (owningRef_canonicalized_iff hv hr)
    context

theorem isValueName_canonicalized (hn : name ∈ table.names) (context : String) :
    table.canonicalized.isValueName name context = table.isValueName name context := by
  refine isValue_congr hv (validate_canonicalized hv) (fun other hu => uses_named_iff.mp hu ▸ hn)
    (fun other hu => ?_) ?_ context
  · rw [uses_named_iff.mp hu, names_canonicalized]
    exact hn
  · rw [owningRef_named_iff, owningRef_named_iff, owning_canonicalized_iff hv]

/-! ## Copies -/

/-- A constituent of a type of the table has the same duplicate. -/
theorem elementCopy_canonicalized {ref : Ref} (hr : ∀ name, ref.Uses name → name ∈ table.names)
    (owner slot : String) :
    table.canonicalized.elementCopy owner slot (ref.rename table.canonicalOf) =
      table.elementCopy owner slot ref := by
  unfold elementCopy
  dsimp only
  rw [isValue_canonicalized hv hr]
  cases ref with
  | inline fields => rfl
  | named target =>
    obtain ⟨canonical, shape, hl⟩ :=
      exists_resolve_of_validate hv (hr target .named) (slotContext slot owner)
    simp only [Ref.rename, hl, resolve_canonicalOf hl, lifted, ok_bind, Shape.isCapability_rename,
      Shape.isBuiltin_rename]

theorem spelledCopy_canonicalized {owner : String} (hg : table.get? owner = some (.type shape)) :
    table.canonicalized.spelledCopy owner (shape.rename table.canonicalOf) =
      table.spelledCopy owner shape := by
  have hslots : ∀ slot ∈ shape.slots, table.canonicalized.elementCopy owner slot.1
      (slot.2.rename table.canonicalOf) = table.elementCopy owner slot.1 slot.2 :=
    fun slot hs => elementCopy_canonicalized hv (mem_names_of_slot hv hg hs) owner slot.1
  cases shape with
  | builtin => rfl
  | fixed length element | dynamic element =>
    rw [Shape.rename, spelledCopy, spelledCopy, hslots _ (List.mem_singleton_self _)]
  | record fields =>
    rw [Shape.rename, spelledCopy, spelledCopy, Ref.renameFields_eq_map]
    congr 1
    exact mapM_map_congr fun field hf => by dsimp only; rw [hslots field hf]

theorem copyBody_canonicalized (name : String) :
    table.canonicalized.copyBody name = table.copyBody name := by
  unfold copyBody
  rw [resolve_canonicalized]
  cases hr : table.resolve name "copy request" with
  | error fault => simp only [Except.map, lifted, error_bind]
  | ok found =>
    obtain ⟨owner, shape⟩ := found
    have hg := get?_of_resolve hr
    have hn := mem_names_of_get? hg
    simp only [Except.map, lifted, ok_bind, Shape.isCapability_rename, Shape.isBuiltin_rename,
      isValueName_canonicalized hv hn, spelledCopy_canonicalized hv hg]

/-- A request for a copy has the same answer and queues the same helpers. -/
theorem requestCopy_canonicalized : table.canonicalized.requestCopy = table.requestCopy := by
  funext name work
  have hrequests : table.canonicalized.copyRequests name = table.copyRequests name := by
    unfold copyRequests
    rw [resolve_canonicalized]
    cases hr : table.resolve name "copy request" with
    | error fault => rfl
    | ok found =>
      obtain ⟨owner, shape⟩ := found
      have hg := get?_of_resolve hr
      have hn := mem_names_of_get? hg
      simp only [Except.map, isValueName_canonicalized hv hn, Shape.slots_rename]
      rw [slotHelpers_map fun slot hs =>
        elementCopy_canonicalized hv (mem_names_of_slot hv hg hs) owner slot.1]
  rw [requestCopy, requestCopy, hrequests, copyBody_canonicalized hv]

/-! ## Zero predicates -/

/-- A constituent of a type of the table has the same test. -/
theorem zeroTest_canonicalized {ref : Ref} (hr : ∀ name, ref.Uses name → name ∈ table.names)
    (owner context : String) :
    table.canonicalized.zeroTest owner context (ref.rename table.canonicalOf) =
      table.zeroTest owner context ref := by
  cases ref with
  | inline fields =>
    have hvalue := isValue_canonicalized hv hr context
    rw [Ref.rename] at hvalue
    rw [Ref.rename, zeroTest, zeroTest, hvalue]
  | named target =>
    obtain ⟨canonical, shape, hl⟩ := exists_resolve_of_validate hv (hr target .named) context
    have hg := get?_of_resolve hl
    have hn := mem_names_of_get? hg
    rw [Ref.rename, zeroTest, zeroTest, hl, resolve_canonicalOf hl]
    simp only [lifted, ok_bind, Shape.zeroLiteral?_rename, isValueName_canonicalized hv hn]
    cases shape <;> rfl

theorem spelledZero_canonicalized {owner : String} (hg : table.get? owner = some (.type shape)) :
    table.canonicalized.spelledZero owner (shape.rename table.canonicalOf) =
      table.spelledZero owner shape := by
  have hslots : ∀ slot ∈ shape.slots, ∀ context, table.canonicalized.zeroTest owner context
      (slot.2.rename table.canonicalOf) = table.zeroTest owner context slot.2 :=
    fun slot hs context => zeroTest_canonicalized hv (mem_names_of_slot hv hg hs) owner context
  cases shape with
  | builtin | dynamic => rfl
  | fixed length element =>
    rw [Shape.rename, spelledZero, spelledZero, hslots _ (List.mem_singleton_self _)]
  | record fields =>
    rw [Shape.rename, spelledZero, spelledZero, Ref.renameFields_eq_map]
    congr 1
    exact mapM_map_congr fun field hf => by dsimp only; rw [hslots field hf]

theorem zeroBody_canonicalized (name : String) :
    table.canonicalized.zeroBody name = table.zeroBody name := by
  unfold zeroBody lookup
  rw [get?_canonicalized]
  cases hg : table.get? name with
  | none => simp only [Option.map_none, lifted, error_bind]
  | some type =>
    cases type with
    | aliasOf target => simp only [Option.map_some, Definition.rename, lifted, ok_bind]
    | type shape =>
      have hn := mem_names_of_get? hg
      simp only [Option.map_some, Definition.rename, lifted, ok_bind, Shape.hasPredicate_rename,
        isValueName_canonicalized hv hn, spelledZero_canonicalized hv hg]

/-- A request for a predicate has the same answer and queues the same types. -/
theorem requestZero_canonicalized : table.canonicalized.requestZero = table.requestZero := by
  funext name work
  have hrequests : table.canonicalized.zeroRequests name = table.zeroRequests name := by
    unfold zeroRequests
    rw [get?_canonicalized]
    cases hg : table.get? name with
    | none => rfl
    | some type =>
      cases type with
      | aliasOf target => rfl
      | type shape =>
        have hn := mem_names_of_get? hg
        rw [isValueName_canonicalized hv hn]
        cases table.isValueName name predicateContext with
        | error fault => rfl
        | ok value =>
          cases value with
          | true => rfl
          | false =>
            simp only [Option.map_some, Definition.rename, Shape.testedSlots_rename]
            refine slotDelegates_map fun slot hs => zeroTest_canonicalized hv ?_ name slot.1
            obtain ⟨field, hf⟩ := exists_slot_of_tested hs
            exact fun used hu => mem_names_of_slot hv hg hf used hu
  rw [requestZero, requestZero, hrequests, zeroBody_canonicalized hv]

end Sound

/-! ## Runs -/

theorem dependencyChain_canonicalized (table : Table) :
    table.canonicalized.dependencyChain = table.dependencyChain := by
  funext work name
  have hdirect : table.canonicalized.directReferences name = table.directReferences name := by
    unfold directReferences
    rw [resolve_canonicalized]
    cases table.resolve name "dependency chain" with
    | error fault => rfl
    | ok found =>
      obtain ⟨canonical, shape⟩ := found
      simp only [Except.map, Shape.slots_rename, List.filterMap_map, List.filterMap_filterMap]
      refine List.filterMap_congr fun slot _ => ?_
      simp only [Function.comp_apply, Ref.name?_rename]
      cases slot.2.name? with
      | none => rfl
      | some used =>
        simp only [Option.map_some, Option.bind_some, canonical?_canonicalized,
          canonical?_canonicalOf]
  rw [dependencyChain, dependencyChain, hdirect]

end Table

namespace Run

variable {table : Table} {language : Code.Language}

theorem exhausted_canonicalized (run : Run) (table : Table) (family : Family) (budget : Nat)
    (name : String) :
    run.exhausted table.canonicalized family budget name =
      run.exhausted table family budget name := by
  rw [exhausted, exhausted, Table.dependencyChain_canonicalized]

theorem queueAll_canonicalized (run : Run) (table : Table) :
    run.queueAll table.canonicalized = run.queueAll table := by
  have hnames : (table.canonicalized.entries.filterMap fun entry =>
      if entry.2.isBuiltin then none else some entry.1) =
      table.entries.filterMap fun entry =>
        if entry.2.isBuiltin then none else some entry.1 := by
    rw [Table.canonicalized, Table.renamed, List.filterMap_map]
    refine List.filterMap_congr fun entry _ => ?_
    simp only [Function.comp_apply, Definition.isBuiltin_rename]
  rw [queueAll, queueAll, hnames]

section Sound

variable (hv : table.validate language = .ok ())
include hv

theorem makeCopy_canonicalized (run : Run) (family : Family) (name : String) :
    run.makeCopy table.canonicalized family name = run.makeCopy table family name := by
  rw [makeCopy, makeCopy, Table.requestCopy_canonicalized hv]

theorem makeZero_canonicalized (run : Run) (name : String) :
    run.makeZero table.canonicalized name = run.makeZero table name := by
  rw [makeZero, makeZero, Table.requestZero_canonicalized hv]

theorem addRoot_canonicalized : addRoot table.canonicalized = addRoot table := by
  funext run root
  unfold addRoot
  rw [Table.resolve_canonicalized]
  cases table.resolve root "root list" with
  | error fault => simp only [Except.map, lifted, error_bind]
  | ok found =>
    simp only [Except.map, lifted, ok_bind, Shape.isCapability_rename, Shape.isBuiltin_rename,
      makeCopy_canonicalized hv, makeZero_canonicalized hv]

theorem drain_canonicalized (family : Family) (budget turns made : Nat) (run : Run) :
    drain table.canonicalized family budget turns made run =
      drain table family budget turns made run := by
  have hmake (run : Run) (name : String) :
      run.make table.canonicalized family name = run.make table family name := by
    cases family with
    | publicCopy | privateCopy => exact makeCopy_canonicalized hv run _ name
    | zeroPredicate => exact makeZero_canonicalized hv run name
  induction turns generalizing made run with
  | zero => rfl
  | succ turns ih =>
    rw [drain, drain]
    cases (run.work family).pop? with
    | none => rfl
    | some head =>
      obtain ⟨name, rest⟩ := head
      dsimp only
      rw [Table.lookup, Table.lookup, Table.get?_canonicalized]
      cases table.get? name with
      | none => simp only [Option.map_none, lifted, error_bind]
      | some type =>
        simp only [Option.map_some, lifted, ok_bind, Definition.isBuiltin_rename, hmake, ih,
          exhausted_canonicalized]

end Sound

end Run

/-- Over a table that passes its check it makes no difference to a run whether fields and elements
refer to their types by canonical names or by aliases: it makes the same methods, or has the same
fault, and writes the same text. -/
theorem Table.synthesize_canonicalized {table : Table} {language : Code.Language}
    (hv : table.validate language = .ok ()) (config : Config) (roots : List String) :
    table.canonicalized.synthesize language config roots = table.synthesize language config roots ∧
      table.canonicalized.generate language config roots = table.generate language config roots := by
  have hsynthesize :
      table.canonicalized.synthesize language config roots =
        table.synthesize language config roots := by
    unfold synthesize synthesizeWithin makeMethods
    simp only [validate_canonicalized hv, hv, size_canonicalized, Run.addRoot_canonicalized hv,
      Run.drain_canonicalized hv, Run.queueAll_canonicalized]
  exact ⟨hsynthesize, by rw [generate, generate, hsynthesize]⟩

/-- The element of the growable sequence is an alias. The chain that a run out of budget reports
goes through it to the record that it leads to. -/
theorem Table.synthesize_canonicalized_ring :
    ring.canonicalized.get? "Nodes" = some (.type (.dynamic (.named "Node"))) ∧
      ring.canonicalized.synthesize Reader.language { maxSteps := some 1 } ["Ring"] =
        .error (.nonTerminating .privateCopy 1 ["Ring", "Node", "Nodes", "Node"] ["Nodes"]) := by
  have hsame := (synthesize_canonicalized validate_ring { maxSteps := some 1 } ["Ring"]).1
  exact ⟨rfl, hsame.trans rfl⟩

end CopySynth
