import CopySynth.Proofs.Requests

/-!
# The copies of a run

The copies of a run are those of the roots and, through the helpers that copies call, of all types
they lead to: nothing is missing, nothing is made twice, and the order is that of the first call.
-/

namespace CopySynth

/-- The types whose copies are needed: those to start from, and those whose helpers the copy of a
needed type calls. -/
inductive Table.CopyNeeded (table : Table) (starts : List String) : String → Prop
  | start {type} (h : type ∈ starts) : CopyNeeded table starts type
  | call {caller body type} (hn : CopyNeeded table starts caller)
      (hb : table.copyBody caller = .ok body) (hc : type ∈ body.helpers) :
      CopyNeeded table starts type

theorem Table.CopyNeeded.mono {table : Table} {starts more : List String}
    (hs : ∀ n ∈ starts, n ∈ more) {type : String} (h : table.CopyNeeded starts type) :
    table.CopyNeeded more type := by
  induction h with
  | start h => exact .start (hs _ h)
  | call _ hb hc ih => exact .call ih hb hc

namespace Run

variable {table : Table} {language : Code.Language}

/-- The copies made so far, when `taken` are the names taken from the queue: one for each requested
type that is no builtin, then one for each name taken, each with the body its definition asks for.
The queue follows the calls of these bodies. -/
structure CopiesMade (table : Table) (taken : List String) (run : Run) : Prop where
  publicNames : run.output.names .publicCopy = run.publics table
  privateNames : run.output.names .privateCopy = taken
  order : run.output.copies.map Prod.fst = run.publics table ++ taken
  bodies : ∀ copy ∈ run.output.copies, ∃ shape, table.get? copy.1 = some (.type shape) ∧
    shape.isBuiltin = false ∧ table.copyBody copy.1 = .ok copy.2
  needed : ∀ copy ∈ run.output.copies, table.CopyNeeded (run.publics table) copy.1
  line : run.copies.Follows run.output.helperCalls run.requested taken
  capabilities : run.output.capabilities = run.output.capabilityCalls.eraseDups

namespace CopiesMade

variable {taken : List String} {run next : Run}

theorem empty : CopiesMade table [] {} := by
  refine ⟨rfl, rfl, rfl, ?_, ?_, .empty, rfl⟩ <;> simp [Synthesis.copies]

/-- A name that a copy calls belongs to a type of the table that is no builtin. -/
theorem get?_of_called (h : CopiesMade table taken run) {n : String}
    (hn : n ∈ run.output.helperCalls) :
    ∃ shape, table.get? n = some (.type shape) ∧ shape.isBuiltin = false := by
  obtain ⟨copy, hc, hn⟩ := List.mem_flatMap.mp hn
  obtain ⟨shape, hg, _, hb⟩ := h.bodies copy hc
  exact Table.get?_of_mem_helpers hg hb hn

/-- What a copy calls is needed. -/
theorem needed_of_called (h : CopiesMade table taken run) {n : String}
    (hn : n ∈ run.output.helperCalls) : table.CopyNeeded (run.publics table) n := by
  obtain ⟨copy, hc, hn⟩ := List.mem_flatMap.mp hn
  obtain ⟨_, _, _, hb⟩ := h.bodies copy hc
  exact .call (h.needed copy hc) hb hn

/-- The interfaces noted with one more copy are those its body calls, as far as they are new. -/
theorem capabilities_addCopy (h : CopiesMade table taken run) (name : String) (family : Family)
    (body : CopyBody) (discovered : Bool) :
    (run.output.addCopy name family body discovered).capabilities =
      (run.output.addCopy name family body discovered).capabilityCalls.eraseDups := by
  rw [Synthesis.capabilityCalls_addCopy, ← Synthesis.noteCapability_foldl, ← h.capabilities]
  rfl

theorem of_sameCopies (h : CopiesMade table taken run) (hs : SameCopies run next) :
    CopiesMade table taken next := by
  have hp : next.publics table = run.publics table := publics_congr hs.requested
  have hh : next.output.helperCalls = run.output.helperCalls := by
    rw [Synthesis.helperCalls, hs.copies, Synthesis.helperCalls]
  have hc : next.output.capabilityCalls = run.output.capabilityCalls := by
    rw [Synthesis.capabilityCalls, hs.copies, Synthesis.capabilityCalls]
  refine ⟨?_, ?_, ?_, ?_, ?_, ?_, ?_⟩
  · rw [hs.names _ (by decide), hp, h.publicNames]
  · rw [hs.names _ (by decide), h.privateNames]
  · rw [hs.copies, hp, h.order]
  · rw [hs.copies]
    exact h.bodies
  · rw [hs.copies, hp]
    exact h.needed
  · rw [hs.work, hh, hs.requested]
    exact h.line
  · rw [hs.capabilities, hc, h.capabilities]

/-- A request adds the public copy of its type, unless it is skipped or names a builtin. -/
theorem request (h : CopiesMade table [] run) {root : String}
    (hr : addRoot table run root = .ok next) : CopiesMade table [] next := by
  obtain ⟨name, shape, _, ⟨_, rfl⟩ | ⟨body, zero, hm⟩⟩ := addRoot_effect hr
  · exact h
  have hline : next.copies.Follows (run.output.helperCalls ++ body.helpers) next.requested [] := by
    rw [hm.copies, hm.requested]
    exact (h.line.requireAll body.helpers name).settle name
  cases hs : shape.isBuiltin with
  | true =>
    have hb : body = .trivial := (Table.trivial_iff hm.known hm.copyBody).mpr hs
    have hz := hm.zeroBody
    rw [hs, if_pos rfl] at hz
    have hout : next.output = run.output := by simp [hm.output, hs, hz]
    have hp : next.publics table = run.publics table := by simp [hm.publics, hs]
    have hnone : body.helpers = [] := by rw [hb]; rfl
    rw [hnone, List.append_nil] at hline
    exact ⟨by rw [hout, hp, h.publicNames], by rw [hout, h.privateNames],
      by rw [hout, hp, h.order], by rw [hout]; exact h.bodies, by rw [hout, hp]; exact h.needed,
      by rw [hout]; exact hline, by rw [hout, h.capabilities]⟩
  | false =>
    have hp : next.publics table = run.publics table ++ [name] := by simp [hm.publics, hs]
    refine of_sameCopies ?_ (hm.sameCopies hs)
    refine ⟨?_, ?_, ?_, ?_, ?_, ?_, h.capabilities_addCopy _ _ _ _⟩
    · show (run.output.addCopy name .publicCopy body false).names .publicCopy = next.publics table
      rw [hp, Synthesis.names_addCopy, h.publicNames, if_pos rfl]
    · simpa using h.privateNames
    · show (run.output.addCopy name .publicCopy body false).copies.map Prod.fst =
        next.publics table ++ []
      simp [hp, h.order]
    · exact Synthesis.forall_copies_addCopy _ _ _ _ _ h.bodies
        ⟨shape, hm.known, hs, hm.copyBody⟩
    · refine Synthesis.forall_copies_addCopy _ _ _ _ _ ?_ (.start ?_)
      · show ∀ copy ∈ run.output.copies, table.CopyNeeded (next.publics table) copy.1
        rw [hp]
        exact fun copy hc => (h.needed copy hc).mono fun n hn => List.mem_append_left _ hn
      · show name ∈ next.publics table
        simp [hp]
    · simpa using hline

/-- The name whose turn it is was called. -/
theorem called_of_pop (h : CopiesMade table taken run) {name : String} {rest : Worklist}
    (hp : run.copies.pop? = some (name, rest)) : name ∈ run.output.helperCalls :=
  ((h.line.pop hp).mem_iff.mp (.inl (by simp))).1

/-- A turn adds the private copy of the name whose turn it is. That name was called, so it is never
skipped. -/
theorem turn (h : CopiesMade table taken run) {name : String}
    (ht : Turn table .privateCopy run name next) : CopiesMade table (taken ++ [name]) next := by
  cases ht with
  | skipped hp hg hb =>
    obtain ⟨shape, hg', hb'⟩ := h.get?_of_called (h.called_of_pop hp)
    rw [hg] at hg'
    cases hg'
    exact absurd (hb'.symm.trans hb) (by decide)
  | @made rest type made hp hg hb hm =>
    obtain ⟨shape, hg', hb'⟩ := h.get?_of_called (h.called_of_pop hp)
    obtain ⟨body, hbody, rfl⟩ := makeCopy_cases hg' hm
    rw [hb', if_neg (by decide)]
    have hline := ((h.line.pop hp).requireAll body.helpers name).finish (by simp : name ∈ _)
    refine ⟨?_, ?_, ?_, ?_, ?_, ?_, h.capabilities_addCopy _ _ _ _⟩
    · show (run.output.addCopy name .privateCopy body true).names .publicCopy = run.publics table
      simpa using h.publicNames
    · show (run.output.addCopy name .privateCopy body true).names .privateCopy = taken ++ [name]
      simp [h.privateNames]
    · show (run.output.addCopy name .privateCopy body true).copies.map Prod.fst =
        run.publics table ++ (taken ++ [name])
      simp [h.order]
    · exact Synthesis.forall_copies_addCopy _ _ _ _ _ h.bodies ⟨shape, hg', hb', hbody⟩
    · exact Synthesis.forall_copies_addCopy _ _ _ _ _ h.needed
        (h.needed_of_called (h.called_of_pop hp))
    · show Worklist.Follows _ (run.output.addCopy name .privateCopy body true).helperCalls _ _
      rw [Synthesis.helperCalls_addCopy]
      exact hline

/-! ## When nothing waits -/

/-- A type whose copy is called has a copy, once the queue is empty. -/
theorem mem_of_called (h : CopiesMade table taken run) (hw : run.copies.pending = []) {n : String}
    (hn : n ∈ run.output.helperCalls) : n ∈ run.output.copies.map Prod.fst := by
  rw [h.order, List.mem_append]
  by_cases hr : n ∈ run.requested
  · obtain ⟨shape, hg, hb⟩ := h.get?_of_called hn
    exact .inl (List.mem_filter.mpr ⟨hr, by simp [Table.namesBuiltin_eq hg, hb]⟩)
  · have hline := h.line.mem_iff.mpr ⟨hn, hr⟩
    rw [hw] at hline
    exact .inr (hline.resolve_right (by simp))

/-- The types with copies are the needed ones. -/
theorem mem_iff_needed (h : CopiesMade table taken run) (hw : run.copies.pending = [])
    (type : String) :
    type ∈ run.output.copies.map Prod.fst ↔ table.CopyNeeded (run.publics table) type := by
  constructor
  · intro ht
    obtain ⟨copy, hc, rfl⟩ := List.mem_map.mp ht
    exact h.needed copy hc
  · intro hn
    induction hn with
    | start hs => rw [h.order]; exact List.mem_append_left _ hs
    | @call caller body type _ hb hc ih =>
      obtain ⟨copy, hcopy, rfl⟩ := List.mem_map.mp ih
      obtain ⟨_, _, _, hbody⟩ := h.bodies copy hcopy
      have hsame : body = copy.2 := Except.ok.inj (hb.symm.trans hbody)
      exact h.mem_of_called hw (List.mem_flatMap.mpr ⟨copy, hcopy, hsame ▸ hc⟩)

/-- The private copies are the called types that are no roots, in order of the first call. -/
theorem privates_eq (h : CopiesMade table taken run) (hw : run.copies.pending = []) :
    taken = run.output.helperCalls.eraseDups.filter (· ∉ run.publics table) := by
  have hline := h.line.line
  rw [hw, List.append_nil] at hline
  rw [← hline]
  refine List.filter_congr fun n hn => ?_
  obtain ⟨shape, hg, hb⟩ := h.get?_of_called (List.mem_eraseDups.mp hn)
  simp [publics, Table.namesBuiltin_eq hg, hb]

theorem nodup_taken (h : CopiesMade table taken run) : taken.Nodup :=
  (List.nodup_append.mp h.line.nodup).1

theorem nodup (h : CopiesMade table taken run) (hr : run.requested.Nodup) :
    (run.publics table ++ taken).Nodup := by
  refine List.nodup_append.mpr ⟨hr.filter _, h.nodup_taken, ?_⟩
  rintro n hp m hm rfl
  exact (h.line.mem_iff.mp (.inl hm)).2 (List.mem_filter.mp hp).1

end CopiesMade

/-- The copies after the requests. -/
theorem copiesMade_of_roots {roots : List String} {start : Run}
    (h : (ascending roots).foldlM (addRoot table) {} = .ok start) :
    Requested table (ascending roots) start ∧ CopiesMade table [] start :=
  roots_induct (P := fun before run => Requested table before run ∧ CopiesMade table [] run)
    (fun _ _ _ _ hi hr => ⟨hi.1.step hr, hi.2.request hr⟩) h ⟨.empty, .empty⟩

/-- The copies of a finished run: the requested types that are no builtins are the roots, and no
call of a copy waits. -/
theorem copies_of_synthesize {config : Config} {roots : List String} {synthesis : Synthesis}
    (h : table.synthesize language config roots = .ok synthesis) :
    ∃ run taken, run.output = synthesis ∧ CopiesMade table taken run ∧ run.copies.pending = [] ∧
      run.publics table = table.rootNames roots ∧ run.requested.Nodup := by
  obtain ⟨requested, copied, final, hq, hc, hf, rfl⟩ := phases_of_synthesize h
  have hstart := copiesMade_of_roots hq
  obtain ⟨taken, ⟨hmade, hsame⟩, -, hw⟩ := drain_induct
    (P := fun taken run => CopiesMade table taken run ∧ run.requested = requested.requested)
    (fun taken run hi => hi.1.nodup_taken)
    (fun taken run name next hi ht => ⟨hi.1.turn ht, ht.samePredicates.requested.trans hi.2⟩)
    hc ⟨hstart.2, rfl⟩
  obtain ⟨_, hturns, -⟩ := turns_of_drain hf
  have hqueue : SameCopies copied (copied.queueAll table) :=
    ⟨rfl, rfl, rfl, fun _ _ => rfl, rfl⟩
  have hzero : SameCopies copied final := hqueue.trans hturns.sameCopies
  have hfinal : SameCopies copied
      { final with output := final.output.markDiscovered final.requested } :=
    hzero.trans ⟨rfl, rfl, by simp, fun _ _ => by simp, by simp⟩
  refine ⟨_, taken, rfl, hmade.of_sameCopies hfinal, ?_, ?_, ?_⟩
  · rw [hfinal.work]
    exact hw
  · exact (publics_congr (hfinal.requested.trans hsame)).trans hstart.1.roots
  · rw [hfinal.requested, hsame]
    exact hstart.1.distinct

end Run

/-- Each copy is the one the definition of its type asks for, and what it calls has a copy. -/
structure Table.CopiesClosed (table : Table) (synthesis : Synthesis) : Prop where
  bodies : ∀ type body, synthesis.copyBody? type = some body →
    ∃ shape, table.get? type = some (.type shape) ∧ shape.isBuiltin = false ∧
      table.copyBody type = .ok body
  called : ∀ type body, synthesis.copyBody? type = some body →
    ∀ helper ∈ body.helpers, (synthesis.copyBody? helper).isSome

/-- A type with a copy is a type of the table. -/
theorem Table.CopiesClosed.mem_names {table : Table} {synthesis : Synthesis}
    (h : table.CopiesClosed synthesis) {type : String} (ht : (synthesis.copyBody? type).isSome) :
    type ∈ table.names := by
  obtain ⟨body, hb⟩ := Option.isSome_iff_exists.mp ht
  obtain ⟨_, hg, _⟩ := h.bodies type body hb
  exact mem_names_of_get? hg

theorem Synthesis.isSome_copyBody?_iff (synthesis : Synthesis) (type : String) :
    (synthesis.copyBody? type).isSome ↔ type ∈ synthesis.copies.map Prod.fst := by
  rw [copyBody?_eq_get?]
  exact Fields.get?_isSome_iff _ _

theorem Table.copiesClosed_of_synthesize {table : Table} {language : Code.Language}
    {config : Config} {roots : List String} {synthesis : Synthesis}
    (h : table.synthesize language config roots = .ok synthesis) :
    table.CopiesClosed synthesis := by
  obtain ⟨run, taken, rfl, hm, hw, -⟩ := Run.copies_of_synthesize h
  refine ⟨fun type body hb => ?_, fun type body hb helper hh => ?_⟩
  · rw [Synthesis.copyBody?_eq_get?] at hb
    exact hm.bodies _ (Fields.mem_of_get? hb)
  · rw [Synthesis.copyBody?_eq_get?] at hb
    have hcalled : helper ∈ run.output.helperCalls :=
      List.mem_flatMap.mpr ⟨_, Fields.mem_of_get? hb, hh⟩
    exact (Synthesis.isSome_copyBody?_iff _ _).mpr (hm.mem_of_called hw hcalled)

/-- What the copies of a synthesis for these roots have to be. -/
structure Table.CopyClosure (table : Table) (roots : List String) (synthesis : Synthesis) :
    Prop where
  /-- The public copies are those of the roots, in order. -/
  publicNames : synthesis.names .publicCopy = table.rootNames roots
  /-- A type has a copy exactly when it is a root or the copy of a type that has one calls it. -/
  needed : ∀ type, (synthesis.copyBody? type).isSome ↔
    table.CopyNeeded (table.rootNames roots) type
  /-- A copy is the one that the definition of its type asks for. -/
  bodies : ∀ type body, synthesis.copyBody? type = some body → table.copyBody type = .ok body
  /-- Public copies are written out before private ones. -/
  order : synthesis.copies.map Prod.fst =
    synthesis.names .publicCopy ++ synthesis.names .privateCopy
  /-- No type has two copies. -/
  once : (synthesis.copies.map Prod.fst).Nodup
  /-- The private copies are those of the called types that are no roots, in order of the first
  call. -/
  privateNames : synthesis.names .privateCopy =
    synthesis.helperCalls.eraseDups.filter (· ∉ table.rootNames roots)
  /-- The interfaces are those whose clone operations are called, in order of the first call. -/
  capabilities : synthesis.capabilities = synthesis.capabilityCalls.eraseDups

/-- The copies of a run are complete, minimal, without repetition and in the order of the first
call; the requests are taken in ascending order, each once. -/
theorem Table.copyClosure_of_synthesize {table : Table} {language : Code.Language} {config : Config}
    {roots : List String} {synthesis : Synthesis}
    (h : table.synthesize language config roots = .ok synthesis) :
    table.CopyClosure roots synthesis ∧ (ascending roots).Pairwise (· < ·) ∧
      ∀ root, root ∈ ascending roots ↔ root ∈ roots := by
  obtain ⟨run, taken, rfl, hm, hw, hroots, hdistinct⟩ := Run.copies_of_synthesize h
  refine ⟨?_, pairwise_ascending roots, fun root => mem_ascending⟩
  refine ⟨?_, ?_, ?_, ?_, ?_, ?_, hm.capabilities⟩
  · rw [hm.publicNames, hroots]
  · intro type
    rw [Synthesis.isSome_copyBody?_iff, hm.mem_iff_needed hw, hroots]
  · intro type body hb
    rw [Synthesis.copyBody?_eq_get?] at hb
    obtain ⟨_, _, _, hbody⟩ := hm.bodies _ (Fields.mem_of_get? hb)
    exact hbody
  · rw [hm.order, hm.publicNames, hm.privateNames]
  · rw [hm.order]
    exact hm.nodup hdistinct
  · rw [hm.privateNames, ← hroots]
    exact hm.privates_eq hw

theorem Table.copyClosure_ring :
    ∃ synthesis, ring.synthesize Reader.language {} ["Ring"] = .ok synthesis ∧
      synthesis.names .privateCopy = ["Node", "Nodes"] ∧ ring.CopyClosure ["Ring"] synthesis :=
  ⟨ringMethods, synthesize_ring, rfl, (copyClosure_of_synthesize synthesize_ring).1⟩

end CopySynth
