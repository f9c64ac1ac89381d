import CopySynth.Proofs.CopyClosure
import CopySynth.Proofs.ZeroClosure

/-!
# Which methods a run makes

Apart from their order, the methods of a finished run and the interfaces it notes are fixed by the
table and the roots. `Makes` says which methods these are without a queue or a budget: each has the
body that the definition of its type asks for.
-/

namespace CopySynth

/-- A copy is either public or discovered, and a predicate stands under its own family. -/
def Method.Fits (method : Method) : Prop :=
  match method.body with
  | .copy _ => method.family = .publicCopy ∧ method.discovered = false ∨
      method.family = .privateCopy ∧ method.discovered = true
  | .zero _ => method.family = .zeroPredicate

namespace Synthesis

variable {synthesis : Synthesis}

theorem mem_copies_iff {type : String} {body : CopyBody} :
    (type, body) ∈ synthesis.copies ↔
      ∃ method ∈ synthesis.methods, method.type = type ∧ method.body = .copy body := by
  rw [copies, List.mem_filterMap]
  refine exists_congr fun method => and_congr_right fun _ => ?_
  cases method.body <;> simp

theorem mem_predicates_iff {type : String} {body : ZeroBody} :
    (type, body) ∈ synthesis.predicates ↔
      ∃ method ∈ synthesis.methods, method.type = type ∧ method.body = .zero body := by
  rw [predicates, List.mem_filterMap]
  refine exists_congr fun method => and_congr_right fun _ => ?_
  cases method.body <;> simp

theorem mem_names_iff {type : String} {family : Family} :
    type ∈ synthesis.names family ↔
      ∃ method ∈ synthesis.methods, method.type = type ∧ method.family = family := by
  simp [names, and_assoc, and_comm]

/-- Methods are distinct when in each family their types are. -/
theorem nodup_methods (h : ∀ family, (synthesis.names family).Nodup) :
    synthesis.methods.Nodup := by
  rw [List.nodup_iff_count_le_one]
  intro method
  have hfamily := (h method.family).of_map
  rw [List.nodup_iff_count_le_one] at hfamily
  have hcount := hfamily method
  rwa [List.count_filter (by simp)] at hcount

/-- All methods stand under the family of their bodies. -/
def Fitting (synthesis : Synthesis) : Prop := ∀ method ∈ synthesis.methods, method.Fits

namespace Fitting

theorem addPublicCopy (h : synthesis.Fitting) (type : String) (body : CopyBody) :
    (synthesis.addCopy type .publicCopy body false).Fitting :=
  List.forall_mem_append.mpr ⟨h, List.forall_mem_singleton.mpr (.inl ⟨rfl, rfl⟩)⟩

theorem addPrivateCopy (h : synthesis.Fitting) (type : String) (body : CopyBody) :
    (synthesis.addCopy type .privateCopy body true).Fitting :=
  List.forall_mem_append.mpr ⟨h, List.forall_mem_singleton.mpr (.inr ⟨rfl, rfl⟩)⟩

theorem addZero (h : synthesis.Fitting) (type : String) (body : ZeroBody) :
    (synthesis.addZero type body).Fitting :=
  List.forall_mem_append.mpr ⟨h, List.forall_mem_singleton.mpr rfl⟩

theorem markDiscovered (h : synthesis.Fitting) (requested : List String) :
    (synthesis.markDiscovered requested).Fitting := by
  intro method hm
  obtain ⟨before, hb, rfl⟩ := List.mem_map.mp hm
  have hfits := h before hb
  split
  · rename_i hf
    unfold Method.Fits at hfits ⊢
    cases hbody : before.body with
    | zero => simpa [hbody] using hf
    | copy => simp [hbody, hf] at hfits
  · exact hfits

end Fitting

end Synthesis

namespace Run

variable {table : Table} {language : Code.Language} {run next : Run}

theorem fitting_of_addRoot (h : run.output.Fitting) {root : String}
    (hr : addRoot table run root = .ok next) : next.output.Fitting := by
  obtain ⟨name, shape, _, ⟨_, rfl⟩ | ⟨body, zero, hm⟩⟩ := addRoot_effect hr
  · exact h
  have hcopied : (if shape.isBuiltin then run.output
      else run.output.addCopy name .publicCopy body false).Fitting := by
    split
    · exact h
    · exact h.addPublicCopy _ _
  rw [hm.output]
  cases zero with
  | none => exact hcopied
  | some zero => exact hcopied.addZero _ _

theorem Turn.fitting {family : Family} (hf : family ≠ .publicCopy) {name : String}
    (h : Turn table family run name next) (hi : run.output.Fitting) : next.output.Fitting := by
  have hkeep (run : Run) : (run.markDone family name).output = run.output := by cases family <;> rfl
  have htake (rest : Worklist) : (run.withWork family rest).output = run.output := by
    cases family <;> rfl
  cases h with
  | skipped => rwa [hkeep, htake]
  | @made rest type made _ _ _ hm =>
    rw [hkeep]
    cases family with
    | publicCopy => exact absurd rfl hf
    | privateCopy =>
      obtain ⟨body, _, rfl⟩ := makeCopy_effect hm
      dsimp only
      split
      · exact hi
      · exact hi.addPrivateCopy _ _
    | zeroPredicate =>
      obtain ⟨body, _, rfl⟩ := makeZero_cases hm
      cases body with
      | none => exact hi
      | some body => exact hi.addZero _ _

theorem fitting_of_synthesize {config : Config} {roots : List String} {synthesis : Synthesis}
    (h : table.synthesize language config roots = .ok synthesis) : synthesis.Fitting := by
  obtain ⟨start, copied, final, hq, hc, hf, rfl⟩ := phases_of_synthesize h
  have hstart : start.output.Fitting :=
    @roots_induct table (fun _ run => run.output.Fitting)
      (fun _ _ _ _ hi hr => fitting_of_addRoot hi hr) (ascending roots) [] {} start hq
      (by simp [Synthesis.Fitting])
  obtain ⟨_, hcopies, -⟩ := turns_of_drain hc
  obtain ⟨_, hzeros, -⟩ := turns_of_drain hf
  have hcopied := hcopies.keeps (P := fun _ run => run.output.Fitting)
    (fun _ _ _ _ hi ht => ht.fitting (by decide) hi) [] hstart
  exact (hzeros.keeps (P := fun _ run => run.output.Fitting)
    (fun _ _ _ _ hi ht => ht.fitting (by decide) hi) [] hcopied).markDiscovered _

end Run

namespace Table

variable {table : Table} {language : Code.Language} {config : Config} {roots : List String}
  {synthesis : Synthesis}

/-- Some predicate of the table delegates to the type. -/
def Delegated (table : Table) (type : String) : Prop :=
  ∃ caller body, table.zeroBody caller = .ok (some body) ∧ type ∈ body.delegates

/-- Some copy that is needed calls the clone operation of the interface. -/
def CloneNeeded (table : Table) (starts : List String) (capability : String) : Prop :=
  ∃ caller body, table.CopyNeeded starts caller ∧ table.copyBody caller = .ok body ∧
    capability ∈ body.capabilities

/-- The methods for these roots: a public copy for each root, a private copy for each other type
whose copy is needed, and a predicate for each type of the table that has one, which counts as
discovered when its type is no root and some predicate delegates to it. -/
inductive Makes (table : Table) (starts : List String) : Method → Prop
  | publicCopy {type body} (hr : type ∈ starts) (hb : table.copyBody type = .ok body) :
      Makes table starts ⟨type, .publicCopy, .copy body, false⟩
  | privateCopy {type body} (hn : table.CopyNeeded starts type) (hr : type ∉ starts)
      (hb : table.copyBody type = .ok body) :
      Makes table starts ⟨type, .privateCopy, .copy body, true⟩
  | zeroPredicate {type body discovered} (hb : table.zeroBody type = .ok (some body))
      (hd : discovered = true ↔ type ∉ starts ∧ table.Delegated type) :
      Makes table starts ⟨type, .zeroPredicate, .zero body, discovered⟩

theorem CopyNeeded.congr {starts others : List String} (hs : ∀ n, n ∈ starts ↔ n ∈ others)
    {type : String} : table.CopyNeeded starts type ↔ table.CopyNeeded others type :=
  ⟨.mono fun n => (hs n).mp, .mono fun n => (hs n).mpr⟩

theorem CloneNeeded.congr {starts others : List String} (hs : ∀ n, n ∈ starts ↔ n ∈ others)
    {capability : String} (h : table.CloneNeeded starts capability) :
    table.CloneNeeded others capability := by
  obtain ⟨caller, body, hn, hb, hc⟩ := h
  exact ⟨caller, body, (CopyNeeded.congr hs).mp hn, hb, hc⟩

/-- Only the set of the roots counts. -/
theorem Makes.congr {starts others : List String} (hs : ∀ n, n ∈ starts ↔ n ∈ others)
    {method : Method} (h : table.Makes starts method) : table.Makes others method := by
  cases h with
  | publicCopy hr hb => exact .publicCopy ((hs _).mp hr) hb
  | privateCopy hn hr hb =>
    exact .privateCopy ((CopyNeeded.congr hs).mp hn) (fun hc => hr ((hs _).mpr hc)) hb
  | zeroPredicate hb hd => exact .zeroPredicate hb (by rw [hd, hs])

/-! ## Finished runs -/

/-- The types with copies, in order, are those whose copies are needed. -/
theorem copyTypes_of_synthesize (h : table.synthesize language config roots = .ok synthesis) :
    (synthesis.copies.map Prod.fst).Nodup ∧ ∀ type, type ∈ synthesis.copies.map Prod.fst ↔
      table.CopyNeeded (table.rootNames roots) type := by
  obtain ⟨run, taken, rfl, hm, hw, hroots, hdistinct⟩ := Run.copies_of_synthesize h
  rw [← hroots]
  exact ⟨hm.order ▸ hm.nodup hdistinct, hm.mem_iff_needed hw⟩

theorem mem_copies_of_synthesize (h : table.synthesize language config roots = .ok synthesis)
    {type : String} {body : CopyBody} :
    (type, body) ∈ synthesis.copies ↔
      table.CopyNeeded (table.rootNames roots) type ∧ table.copyBody type = .ok body := by
  have hmem := (copyTypes_of_synthesize h).2 type
  obtain ⟨run, taken, rfl, hm, _⟩ := Run.copies_of_synthesize h
  rw [← hmem]
  constructor
  · intro hc
    obtain ⟨_, _, _, hb⟩ := hm.bodies _ hc
    exact ⟨List.mem_map_of_mem (f := Prod.fst) hc, hb⟩
  · rintro ⟨hn, hb⟩
    obtain ⟨copy, hc, rfl⟩ := List.mem_map.mp hn
    obtain ⟨_, _, _, hb'⟩ := hm.bodies _ hc
    cases hb.symm.trans hb'
    exact hc

/-- The types with predicates, in order, are those of the table that can have one. -/
theorem zeroTypes_of_synthesize (h : table.synthesize language config roots = .ok synthesis) :
    (synthesis.names .zeroPredicate).Nodup ∧ ∀ type, type ∈ synthesis.names .zeroPredicate ↔
      table.hasPredicate type = true := by
  obtain ⟨_, run, taken, rfl, _, hm, hw, _, _, hdistinct⟩ := Run.zeros_of_synthesize h
  rw [Synthesis.names_markDiscovered, hm.names]
  exact ⟨hm.nodup hdistinct, hm.mem_iff (fun n hn => List.mem_append_right _ hn) hw⟩

theorem mem_predicates_of_synthesize (h : table.synthesize language config roots = .ok synthesis)
    {type : String} {body : ZeroBody} :
    (type, body) ∈ synthesis.predicates ↔ table.zeroBody type = .ok (some body) := by
  obtain ⟨_, run, taken, rfl, _, hm, hw, _⟩ := Run.zeros_of_synthesize h
  rw [Synthesis.predicates_markDiscovered]
  refine ⟨hm.bodies _, fun hb => ?_⟩
  have hp : table.hasPredicate type = true := hasPredicate_iff hb
  obtain ⟨predicate, hin, rfl⟩ := List.mem_map.mp
    ((hm.mem_iff (fun n hn => List.mem_append_right _ hn) hw type).mpr hp)
  cases hb.symm.trans (hm.bodies _ hin)
  exact hin

theorem delegated_iff_of_synthesize (h : table.synthesize language config roots = .ok synthesis)
    {type : String} : type ∈ synthesis.delegated ↔ table.Delegated type := by
  rw [Synthesis.delegated_eq_flatMap, List.mem_flatMap]
  constructor
  · rintro ⟨⟨caller, body⟩, hp, ht⟩
    exact ⟨caller, body, (mem_predicates_of_synthesize h).mp hp, ht⟩
  · rintro ⟨caller, body, hb, ht⟩
    exact ⟨(caller, body), (mem_predicates_of_synthesize h).mpr hb, ht⟩

/-- Public copies are those of the roots, and no type has two copies. -/
theorem copyNames_of_synthesize (h : table.synthesize language config roots = .ok synthesis) :
    synthesis.names .publicCopy = table.rootNames roots ∧
      (synthesis.names .publicCopy ++ synthesis.names .privateCopy).Nodup := by
  obtain ⟨run, taken, rfl, hm, _, hroots, hdistinct⟩ := Run.copies_of_synthesize h
  refine ⟨hm.publicNames.trans hroots, ?_⟩
  rw [hm.publicNames, hm.privateNames]
  exact hm.nodup hdistinct

theorem discovered_of_synthesize (h : table.synthesize language config roots = .ok synthesis)
    {method : Method} (hm : method ∈ synthesis.methods) (hf : method.family = .zeroPredicate) :
    method.discovered = true ↔
      method.type ∉ table.rootNames roots ∧ table.Delegated method.type := by
  have hdelegated : method.type ∈ synthesis.delegated ↔ table.Delegated method.type :=
    delegated_iff_of_synthesize h
  have hname := ((zeroTypes_of_synthesize h).2 method.type).mp
    (Synthesis.mem_names_iff.mpr ⟨method, hm, rfl, hf⟩)
  obtain ⟨_, run, _, rfl, _, _, _, _, hroots, _⟩ := Run.zeros_of_synthesize h
  rw [Synthesis.delegated_eq_flatMap, Synthesis.predicates_markDiscovered,
    ← Synthesis.delegated_eq_flatMap] at hdelegated
  rw [Synthesis.discovered_markDiscovered _ _ hm hf, hdelegated,
    Run.ZerosMade.mem_requested_iff hname, hroots]

/-- The family of a copy tells whether its type is a root. -/
theorem family_of_copy (h : table.synthesize language config roots = .ok synthesis) {method : Method}
    {body : CopyBody} (hm : method ∈ synthesis.methods) (hb : method.body = .copy body) :
    (method.family = .publicCopy ∧ method.discovered = false ∧
      method.type ∈ table.rootNames roots) ∨
    (method.family = .privateCopy ∧ method.discovered = true ∧
      method.type ∉ table.rootNames roots) := by
  obtain ⟨hpublic, hdistinct⟩ := copyNames_of_synthesize h
  have hcase := Run.fitting_of_synthesize h method hm
  rw [Method.Fits, hb] at hcase
  rcases hcase with ⟨hf, hd⟩ | ⟨hf, hd⟩
  · exact .inl ⟨hf, hd, hpublic ▸ Synthesis.mem_names_iff.mpr ⟨method, hm, rfl, hf⟩⟩
  · refine .inr ⟨hf, hd, fun hr => ?_⟩
    rw [← hpublic] at hr
    exact List.disjoint_of_nodup_append hdistinct hr
      (Synthesis.mem_names_iff.mpr ⟨method, hm, rfl, hf⟩)

theorem makes_of_mem_methods (h : table.synthesize language config roots = .ok synthesis)
    {method : Method} (hm : method ∈ synthesis.methods) :
    table.Makes (table.rootNames roots) method := by
  obtain ⟨type, family, body, discovered⟩ := method
  cases body with
  | copy body =>
    obtain ⟨hn, hb⟩ := (mem_copies_of_synthesize h).mp
      (Synthesis.mem_copies_iff.mpr ⟨_, hm, rfl, rfl⟩)
    rcases family_of_copy h hm rfl with ⟨rfl, rfl, hr⟩ | ⟨rfl, rfl, hr⟩
    · exact .publicCopy hr hb
    · exact .privateCopy hn hr hb
  | zero body =>
    cases show family = .zeroPredicate from Run.fitting_of_synthesize h _ hm
    exact .zeroPredicate
      ((mem_predicates_of_synthesize h).mp (Synthesis.mem_predicates_iff.mpr ⟨_, hm, rfl, rfl⟩))
      (discovered_of_synthesize h hm rfl)

/-- A method of the run with the same type and body is the one that is asked for. -/
theorem mem_methods_of_makes (h : table.synthesize language config roots = .ok synthesis)
    {method : Method} (hmakes : table.Makes (table.rootNames roots) method) :
    method ∈ synthesis.methods := by
  have hcopy {type : String} {body : CopyBody}
      (hn : table.CopyNeeded (table.rootNames roots) type)
      (hb : table.copyBody type = .ok body) :
      ∃ method ∈ synthesis.methods, method.type = type ∧ method.body = .copy body :=
    Synthesis.mem_copies_iff.mp ((mem_copies_of_synthesize h).mpr ⟨hn, hb⟩)
  cases hmakes with
  | @publicCopy type body hr hb =>
    obtain ⟨⟨_, family, _, discovered⟩, hm, rfl, rfl⟩ := hcopy (.start hr) hb
    rcases family_of_copy h hm rfl with ⟨rfl, rfl, _⟩ | ⟨_, _, hnot⟩
    · exact hm
    · exact absurd hr hnot
  | @privateCopy type body hn hr hb =>
    obtain ⟨⟨_, family, _, discovered⟩, hm, rfl, rfl⟩ := hcopy hn hb
    rcases family_of_copy h hm rfl with ⟨_, _, hroot⟩ | ⟨rfl, rfl, _⟩
    · exact absurd hroot hr
    · exact hm
  | @zeroPredicate type body discovered hb hd =>
    obtain ⟨⟨_, family, _, marked⟩, hm, rfl, rfl⟩ :=
      Synthesis.mem_predicates_iff.mp ((mem_predicates_of_synthesize h).mpr hb)
    cases show family = .zeroPredicate from Run.fitting_of_synthesize h _ hm
    have hmarked : marked = discovered := by
      rw [Bool.eq_iff_iff, hd]
      exact discovered_of_synthesize h hm rfl
    exact hmarked ▸ hm

/-- The methods of a finished run are those the definitions ask for. -/
theorem mem_methods_iff (h : table.synthesize language config roots = .ok synthesis)
    {method : Method} :
    method ∈ synthesis.methods ↔ table.Makes (table.rootNames roots) method :=
  ⟨makes_of_mem_methods h, mem_methods_of_makes h⟩

theorem nodup_methods_of_synthesize (h : table.synthesize language config roots = .ok synthesis) :
    synthesis.methods.Nodup := by
  obtain ⟨hpublic, hprivate, _⟩ := List.nodup_append.mp (copyNames_of_synthesize h).2
  refine Synthesis.nodup_methods fun family => ?_
  cases family with
  | publicCopy => exact hpublic
  | privateCopy => exact hprivate
  | zeroPredicate => exact (zeroTypes_of_synthesize h).1

/-- The interfaces of a finished run are those whose clone operations a copy that is needed
calls, each once. -/
theorem capabilities_of_synthesize (h : table.synthesize language config roots = .ok synthesis) :
    synthesis.capabilities.Nodup ∧ ∀ capability, capability ∈ synthesis.capabilities ↔
      table.CloneNeeded (table.rootNames roots) capability := by
  have hcopies {type : String} {body : CopyBody} : (type, body) ∈ synthesis.copies ↔
      table.CopyNeeded (table.rootNames roots) type ∧ table.copyBody type = .ok body :=
    mem_copies_of_synthesize h
  obtain ⟨run, taken, rfl, hm, _, _, _⟩ := Run.copies_of_synthesize h
  refine ⟨hm.capabilities ▸ nodup_eraseDups _, fun capability => ?_⟩
  rw [hm.capabilities, List.mem_eraseDups, Synthesis.capabilityCalls, List.mem_flatMap]
  constructor
  · rintro ⟨⟨caller, body⟩, hc, hcall⟩
    exact ⟨caller, body, (hcopies.mp hc).1, (hcopies.mp hc).2, hcall⟩
  · rintro ⟨caller, body, hn, hb, hcall⟩
    exact ⟨(caller, body), hcopies.mpr ⟨hn, hb⟩, hcall⟩

end Table

end CopySynth
