import CopySynth.Proofs.Requests

/-!
# The zero predicates of a run

The zero predicates of a run are those of all records and sequences of fixed length in the table,
each once: those of the roots first, then those the root predicates delegate to, then the others in
the order of the table.
-/

namespace CopySynth

/-- Whether the table defines a record or a sequence of fixed length under this name. -/
def Table.hasPredicate (table : Table) (name : String) : Bool :=
  match table.get? name with
  | some (.type shape) => shape.hasPredicate
  | _ => false

theorem Table.hasPredicate_eq {table : Table} {name : String} {shape : Shape}
    (hg : table.get? name = some (.type shape)) :
    table.hasPredicate name = shape.hasPredicate := by
  rw [hasPredicate, hg]

theorem Table.hasPredicate_eq_true_iff {table : Table} {name : String} :
    table.hasPredicate name = true ↔
      ∃ shape, table.get? name = some (.type shape) ∧ shape.hasPredicate = true := by
  constructor
  · intro h
    unfold hasPredicate at h
    split at h
    · rename_i shape hg
      exact ⟨shape, hg, h⟩
    · exact absurd h (by decide)
  · rintro ⟨shape, hg, hs⟩
    rw [hasPredicate_eq hg, hs]

/-- A name has a predicate exactly when its request yields one. -/
theorem Table.hasPredicate_iff {table : Table} {name : String} {body : Option ZeroBody}
    (h : table.zeroBody name = .ok body) : table.hasPredicate name = body.isSome := by
  rcases zeroBody_cases h with ⟨rfl, type, hg, hno⟩ | ⟨shape, hg, hs, hcase⟩
  · rw [hasPredicate, hg]
    cases type with
    | aliasOf target => rfl
    | type shape => exact hno shape rfl
  · rw [hasPredicate_eq hg, hs]
    rcases hcase with ⟨_, rfl⟩ | ⟨_, spelled, rfl, _⟩ <;> rfl

/-- No builtin has a predicate. -/
theorem Table.not_namesBuiltin {table : Table} {name : String}
    (h : table.hasPredicate name = true) : table.namesBuiltin name = false := by
  obtain ⟨shape, hg, hs⟩ := hasPredicate_eq_true_iff.mp h
  rw [namesBuiltin_eq hg]
  cases shape with
  | builtin type => cases hs
  | fixed | dynamic | record => rfl

theorem Table.mem_names_of_hasPredicate {table : Table} {name : String}
    (h : table.hasPredicate name = true) : name ∈ table.names := by
  obtain ⟨shape, hg, _⟩ := hasPredicate_eq_true_iff.mp h
  exact mem_names_of_get? hg

namespace Run

variable {table : Table} {language : Code.Language}

/-- The names of the table that are queued after the requests. -/
def seeds (table : Table) : List String := table.names.filter fun name => !table.namesBuiltin name

/-- The predicates made so far, when `taken` are the names taken from the queue and `asked` those it
was asked for: one for each requested or taken name of a type that has one, with the body its
definition asks for. -/
structure ZerosMade (table : Table) (asked taken : List String) (run : Run) : Prop where
  names : run.output.names .zeroPredicate = run.output.predicates.map Prod.fst
  order : run.output.predicates.map Prod.fst =
    (run.requested ++ taken).filter table.hasPredicate
  bodies : ∀ predicate ∈ run.output.predicates,
    table.zeroBody predicate.1 = .ok (some predicate.2)
  line : run.zeros.Follows asked run.requested taken

namespace ZerosMade

variable {asked taken : List String} {run next : Run}

theorem empty : ZerosMade table [] [] {} := by
  refine ⟨rfl, rfl, ?_, .empty⟩
  simp [Synthesis.predicates]

theorem of_samePredicates (h : ZerosMade table asked taken run) (hs : SamePredicates run next) :
    ZerosMade table asked taken next := by
  refine ⟨?_, ?_, ?_, ?_⟩
  · rw [hs.names, h.names, hs.predicates]
  · rw [hs.predicates, h.order, hs.requested]
  · rw [hs.predicates]
    exact h.bodies
  · rw [hs.work, hs.requested]
    exact h.line

/-- A type that a predicate delegates to has a predicate. -/
theorem hasPredicate_of_delegated (h : ZerosMade table asked taken run) {n : String}
    (hn : n ∈ run.output.delegated) : table.hasPredicate n = true := by
  rw [Synthesis.delegated_eq_flatMap] at hn
  obtain ⟨predicate, hp, hn⟩ := List.mem_flatMap.mp hn
  obtain ⟨shape, hg, hs⟩ := Table.get?_of_mem_delegates (h.bodies predicate hp) hn
  rw [Table.hasPredicate_eq hg, hs]

/-- What a request or a turn does to the predicates: the requested type or the taken name comes
next, with its predicate if it has one. -/
theorem add (zero : Option ZeroBody) {name : String} {more extra : List String}
    (h : ZerosMade table asked taken run) (hz : table.hasPredicate name = zero.isSome)
    (hb : ∀ body, zero = some body → table.zeroBody name = .ok (some body))
    (hn : next.output.names .zeroPredicate =
      run.output.names .zeroPredicate ++ if zero.isSome then [name] else [])
    (hp : next.output.predicates = run.output.predicates ++ (zero.map (name, ·)).toList)
    (hord : next.requested ++ more = run.requested ++ taken ++ [name])
    (hline : next.zeros.Follows extra next.requested more) :
    ZerosMade table extra more next := by
  refine ⟨?_, ?_, ?_, hline⟩
  · rw [hn, hp, h.names]
    cases zero <;> simp
  · rw [hp, hord, List.map_append, h.order, List.filter_append]
    cases zero <;> simp [hz]
  · intro predicate hm
    rw [hp] at hm
    rcases List.mem_append.mp hm with hm | hm
    · exact h.bodies predicate hm
    · cases zero with
      | none => simp at hm
      | some body =>
        cases List.mem_singleton.mp (by simpa using hm : predicate ∈ [(name, body)])
        exact hb body rfl

/-- A request adds the predicate of its type, unless it is skipped or its type has none. -/
theorem request (h : ZerosMade table run.output.delegated [] run) {root : String}
    (hr : addRoot table run root = .ok next) : ZerosMade table next.output.delegated [] next := by
  obtain ⟨name, shape, _, ⟨_, rfl⟩ | ⟨body, zero, hm⟩⟩ := addRoot_effect hr
  · exact h
  have hline := (h.line.requireAll ((zero.map ZeroBody.delegates).getD []) name).settle name
  rw [← hm.zeros, ← hm.requested] at hline
  have hzero : table.hasPredicate name = zero.isSome ∧
      ∀ body, zero = some body → table.zeroBody name = .ok (some body) := by
    have hz := hm.zeroBody
    cases hs : shape.isBuiltin with
    | true =>
      rw [hs, if_pos rfl] at hz
      subst hz
      refine ⟨?_, by simp⟩
      rw [Table.hasPredicate_eq hm.known]
      cases shape <;> simp [Shape.isBuiltin, Shape.hasPredicate] at hs ⊢
    | false =>
      rw [hs, if_neg (by decide)] at hz
      exact ⟨Table.hasPredicate_iff hz, fun body hb => by rw [hz, hb]⟩
  have hd : next.output.delegated =
      run.output.delegated ++ (zero.map ZeroBody.delegates).getD [] := by
    rw [hm.output]
    cases zero <;> dsimp only [Option.elim] <;> split <;> simp
  rw [hd]
  refine h.add zero hzero.1 hzero.2 ?_ ?_ (by simp [hm.requested]) hline
  · rw [hm.output]
    cases zero <;> dsimp only [Option.elim] <;> split <;> simp
  · rw [hm.output]
    cases zero <;> dsimp only [Option.elim] <;> split <;> simp

/-- The name whose turn it is was asked for. -/
theorem asked_of_pop (h : ZerosMade table asked taken run) {name : String} {rest : Worklist}
    (hp : run.zeros.pop? = some (name, rest)) : name ∈ asked :=
  ((h.line.pop hp).mem_iff.mp (.inl (by simp))).1

/-- A turn adds the predicate of the name whose turn it is, if it has one. All types it delegates to
were asked for before, since the whole table was. -/
theorem turn (h : ZerosMade table asked taken run) (ha : ∀ n ∈ seeds table, n ∈ asked)
    {name : String} (ht : Turn table .zeroPredicate run name next) :
    ZerosMade table asked (taken ++ [name]) next := by
  cases ht with
  | @skipped rest type hp hg hb =>
    have hno : table.hasPredicate name = false := by
      cases type with
      | aliasOf target => rw [Table.hasPredicate, hg]
      | type shape =>
        rw [Table.hasPredicate_eq hg]
        cases shape <;> simp [Definition.isBuiltin, Shape.isBuiltin, Shape.hasPredicate] at hb ⊢
    exact h.add none (by simpa using hno) (by simp) (by simp [markDone, withWork])
      (by simp [markDone, withWork]) (by simp [markDone, withWork])
      ((h.line.pop hp).finish (by simp))
  | @made rest type made hp hg hb hm =>
    obtain ⟨zero, hz, rfl⟩ := makeZero_cases hm
    -- a delegation asks for nothing new
    have hsub : ∀ n ∈ (zero.map ZeroBody.delegates).getD [], n ∈ asked := by
      intro n hn
      cases zero with
      | none => simp at hn
      | some body =>
        obtain ⟨shape, hg', hs⟩ := Table.get?_of_mem_delegates hz hn
        have hpred := Table.hasPredicate_eq_true_iff.mpr ⟨shape, hg', hs⟩
        exact ha n (List.mem_filter.mpr
          ⟨Table.mem_names_of_hasPredicate hpred, by simp [Table.not_namesBuiltin hpred]⟩)
    have hline := ((h.line.pop hp).requireAll ((zero.map ZeroBody.delegates).getD []) name).finish
      (by simp : name ∈ _)
    refine h.add zero (Table.hasPredicate_iff hz) (fun body hb => by rw [hz, hb]) ?_ ?_ ?_
      (hline.congr (eraseDups_append_of_subset hsub).symm)
    · cases zero <;> simp [markDone, withWork]
    · cases zero <;> simp [markDone, withWork]
    · simp [markDone, withWork]

/-! ## When nothing waits -/

/-- The types with predicates are the records and sequences of fixed length of the table. -/
theorem mem_iff (h : ZerosMade table asked taken run) (ha : ∀ n ∈ seeds table, n ∈ asked)
    (hw : run.zeros.pending = []) (n : String) :
    n ∈ run.output.predicates.map Prod.fst ↔ table.hasPredicate n = true := by
  rw [h.order, List.mem_filter, List.mem_append, and_iff_right_iff_imp]
  intro hn
  have hseed : n ∈ seeds table :=
    List.mem_filter.mpr ⟨Table.mem_names_of_hasPredicate hn, by simp [Table.not_namesBuiltin hn]⟩
  by_cases hr : n ∈ run.requested
  · exact .inl hr
  · have hline := h.line.mem_iff.mpr ⟨ha n hseed, hr⟩
    rw [hw] at hline
    exact .inr (hline.resolve_right (by simp))

theorem nodup_taken (h : ZerosMade table asked taken run) : taken.Nodup :=
  (List.nodup_append.mp h.line.nodup).1

theorem nodup (h : ZerosMade table asked taken run) (hr : run.requested.Nodup) :
    (run.output.predicates.map Prod.fst).Nodup := by
  rw [h.order]
  refine List.Nodup.filter _ (List.nodup_append.mpr ⟨hr, h.nodup_taken, ?_⟩)
  rintro n hp m hm rfl
  exact (h.line.mem_iff.mp (.inl hm)).2 hp

/-- Among the types with predicates, the requested ones are the roots. -/
theorem mem_requested_iff {n : String} (hn : table.hasPredicate n = true) :
    n ∈ run.requested ↔ n ∈ run.publics table := by
  rw [publics, List.mem_filter, Table.not_namesBuiltin hn]
  simp

theorem filter_requested :
    run.requested.filter table.hasPredicate =
      (run.publics table).filter table.hasPredicate := by
  rw [publics, List.filter_filter]
  refine List.filter_congr fun n _ => ?_
  cases hn : table.hasPredicate n with
  | false => simp
  | true => simp [Table.not_namesBuiltin hn]

/-- The names taken that have predicates: those the roots delegate to come first, then the others in
the order of the table. -/
theorem filter_taken {called : List String}
    (h : ZerosMade table (called ++ seeds table) taken run) (hw : run.zeros.pending = [])
    (hc : ∀ n ∈ called, table.hasPredicate n = true) :
    taken.filter table.hasPredicate =
      called.eraseDups.filter (· ∉ run.publics table) ++
        table.names.filter fun n =>
          table.hasPredicate n ∧ n ∉ run.publics table ∧ n ∉ called := by
  have hseeds : (seeds table).Nodup := table.distinct_names.filter _
  have hline := h.line.line
  rw [hw, List.append_nil, eraseDups_append_of_nodup hseeds, List.filter_append] at hline
  rw [← hline, List.filter_append]
  congr 1
  · rw [List.filter_filter]
    refine List.filter_congr fun n hn => ?_
    have hn := hc n (List.mem_eraseDups.mp hn)
    simp [hn, mem_requested_iff hn]
  · rw [seeds, List.filter_filter, List.filter_filter, List.filter_filter]
    refine List.filter_congr fun n _ => ?_
    cases hn : table.hasPredicate n with
    | false => simp
    | true => simp [Table.not_namesBuiltin hn, mem_requested_iff hn]

end ZerosMade

theorem seeds_eq (table : Table) :
    (table.entries.filterMap fun entry => if entry.2.isBuiltin then none else some entry.1) =
      seeds table := by
  rw [seeds, Table.names, Fields.names, List.filter_map, ← List.filterMap_eq_map,
    ← List.filterMap_eq_filter, List.filterMap_filterMap]
  refine List.filterMap_congr fun entry he => ?_
  have hg : table.get? entry.1 = some entry.2 := Table.get?_eq_some_iff.mpr he
  cases hb : entry.2.isBuiltin <;> simp [Option.guard, Table.namesBuiltin, hg, hb]

/-- The predicates after the requests. -/
theorem zerosMade_of_roots {roots : List String} {start : Run}
    (h : (ascending roots).foldlM (addRoot table) {} = .ok start) :
    Requested table (ascending roots) start ∧ ZerosMade table start.output.delegated [] start :=
  roots_induct (P := fun before run => Requested table before run ∧
      ZerosMade table run.output.delegated [] run)
    (fun _ _ _ _ hi hr => ⟨hi.1.step hr, hi.2.request hr⟩) h ⟨.empty, .empty⟩

/-- After the requests the whole table is asked for. -/
theorem ZerosMade.queueAll {asked : List String} {run : Run} (h : ZerosMade table asked [] run) :
    ZerosMade table (asked ++ seeds table) [] (run.queueAll table) := by
  refine ⟨h.names, h.order, h.bodies, ?_⟩
  have hline := h.line.pushAll (seeds table)
  rw [← seeds_eq] at hline ⊢
  exact hline

/-- The predicates of a finished run, beside those made for the requests. -/
theorem zeros_of_synthesize {config : Config} {roots : List String} {synthesis : Synthesis}
    (h : table.synthesize language config roots = .ok synthesis) :
    ∃ start final taken, synthesis = final.output.markDiscovered final.requested ∧
      ZerosMade table start.output.delegated [] start ∧
      ZerosMade table (start.output.delegated ++ seeds table) taken final ∧
      final.zeros.pending = [] ∧ final.requested = start.requested ∧
      final.publics table = table.rootNames roots ∧ final.requested.Nodup := by
  obtain ⟨start, copied, final, hq, hc, hf, hsynth⟩ := phases_of_synthesize h
  have hstart := zerosMade_of_roots hq
  obtain ⟨_, hturns, -⟩ := turns_of_drain hc
  have hcopied := hstart.2.of_samePredicates hturns.samePredicates
  obtain ⟨taken, ⟨hmade, hsame⟩, -, hw⟩ := drain_induct
    (P := fun taken run => ZerosMade table (start.output.delegated ++ seeds table) taken run ∧
      run.requested = start.requested)
    (fun taken run hi => hi.1.nodup_taken)
    (fun taken run name next hi ht =>
      ⟨hi.1.turn (fun n hn => List.mem_append_right _ hn) ht,
        ht.sameCopies.requested.trans hi.2⟩)
    hf ⟨hcopied.queueAll, hturns.samePredicates.requested⟩
  refine ⟨start, final, taken, hsynth, hstart.2, hmade, hw, hsame, ?_, ?_⟩
  · exact (publics_congr hsame).trans hstart.1.roots
  · rw [hsame]
    exact hstart.1.distinct

end Run

/-- Each type that can have a predicate has one, which is the one its definition asks for. -/
structure Table.ZerosClosed (table : Table) (synthesis : Synthesis) : Prop where
  covers : ∀ type, (synthesis.zeroBody? type).isSome ↔ table.hasPredicate type = true
  bodies : ∀ type body, synthesis.zeroBody? type = some body →
    table.zeroBody type = .ok (some body)

theorem Table.zerosClosed_of_synthesize {table : Table} {language : Code.Language} {config : Config}
    {roots : List String} {synthesis : Synthesis}
    (h : table.synthesize language config roots = .ok synthesis) :
    table.ZerosClosed synthesis := by
  obtain ⟨start, run, taken, rfl, _, hm, hw, -⟩ := Run.zeros_of_synthesize h
  refine ⟨fun type => ?_, fun type body hb => ?_⟩
  · rw [Synthesis.zeroBody?_eq_get?, Synthesis.predicates_markDiscovered,
      ← hm.mem_iff (fun n hn => List.mem_append_right _ hn) hw]
    exact Fields.get?_isSome_iff _ _
  · rw [Synthesis.zeroBody?_eq_get?, Synthesis.predicates_markDiscovered] at hb
    exact hm.bodies _ (Fields.mem_of_get? hb)

/-- A type that a predicate delegates to has a predicate. -/
theorem Table.ZerosClosed.delegated {table : Table} {synthesis : Synthesis}
    (h : table.ZerosClosed synthesis) {type target : String} {body : ZeroBody}
    (hb : synthesis.zeroBody? type = some body) (ht : target ∈ body.delegates) :
    (synthesis.zeroBody? target).isSome := by
  obtain ⟨shape, hg, hs⟩ := get?_of_mem_delegates (h.bodies type body hb) ht
  rw [h.covers, hasPredicate_eq hg, hs]

/-- What the zero predicates of a synthesis for these roots have to be. -/
structure Table.ZeroClosure (table : Table) (roots : List String) (synthesis : Synthesis) :
    Prop where
  /-- The types with predicates are the records and the sequences of fixed length of the table. -/
  covers : ∀ type, (synthesis.zeroBody? type).isSome ↔
    ∃ shape, (type, .type shape) ∈ table.entries ∧ shape.hasPredicate = true
  /-- A predicate is the one that the definition of its type asks for. -/
  bodies : ∀ type body, synthesis.zeroBody? type = some body →
    table.zeroBody type = .ok (some body)
  /-- No type has two predicates. -/
  once : (synthesis.predicates.map Prod.fst).Nodup
  /-- The roots come first, then the types that root predicates delegate to, in order of the first
  delegation, then the others in the order of the table. -/
  order :
    let called := (table.rootNames roots).flatMap synthesis.delegatesOf
    synthesis.predicates.map Prod.fst =
      (table.rootNames roots).filter table.hasPredicate ++
      (called.eraseDups.filter (· ∉ table.rootNames roots) ++
      table.names.filter fun n => table.hasPredicate n ∧ n ∉ table.rootNames roots ∧ n ∉ called)
  /-- Predicates are written out under the family of predicates. -/
  names : synthesis.names .zeroPredicate = synthesis.predicates.map Prod.fst
  /-- A type that a predicate delegates to has a predicate. -/
  delegates : ∀ method ∈ synthesis.methods, ∀ type ∈ method.delegates,
    (synthesis.zeroBody? type).isSome
  /-- A predicate counts as discovered when its type is no root and some predicate delegates to
  it. -/
  discovered : ∀ method ∈ synthesis.methods, method.family = .zeroPredicate →
    (method.discovered = true ↔ method.type ∉ table.rootNames roots ∧
      ∃ other ∈ synthesis.methods, method.type ∈ other.delegates)

/-- What the predicates of some types delegate to is known from the synthesis they end up in. -/
theorem Run.ZerosMade.delegated_eq {table : Table} {asked : List String} {run : Run}
    (h : ZerosMade table asked [] run) {synthesis : Synthesis}
    (hclosed : table.ZerosClosed synthesis) :
    run.output.delegated = (run.publics table).flatMap synthesis.delegatesOf := by
  have hnone : ∀ n ∈ run.publics table, table.hasPredicate n = false →
      synthesis.delegatesOf n = [] := by
    intro n _ hn
    cases hz : synthesis.zeroBody? n with
    | none => simp [Synthesis.delegatesOf, hz]
    | some body =>
      have := (hclosed.covers n).mp (by simp [hz])
      simp [hn] at this
  have horder := h.order
  rw [List.append_nil, filter_requested] at horder
  rw [← flatMap_filter_eq hnone, ← horder, List.flatMap_map, Synthesis.delegated_eq_flatMap]
  refine List.flatMap_congr fun predicate hp => ?_
  have hbody := h.bodies predicate hp
  have hsome := (hclosed.covers predicate.1).mpr (by rw [Table.hasPredicate_iff hbody]; rfl)
  obtain ⟨body, hz⟩ := Option.isSome_iff_exists.mp hsome
  have hsame : predicate.2 = body := by
    have := hclosed.bodies _ _ hz
    rw [hbody] at this
    simpa using this
  simp [Synthesis.delegatesOf, hz, hsame]

/-- The zero predicates of a run are complete, each made once, in the order of the roots, the first
delegations and the table, and they say rightly which of them were discovered. -/
theorem Table.zeroClosure_of_synthesize {table : Table} {language : Code.Language} {config : Config}
    {roots : List String} {synthesis : Synthesis}
    (h : table.synthesize language config roots = .ok synthesis) :
    table.ZeroClosure roots synthesis ∧ (ascending roots).Pairwise (· < ·) ∧
      ∀ root, root ∈ ascending roots ↔ root ∈ roots := by
  obtain ⟨start, run, taken, rfl, hstart, hm, hw, hsame, hroots, hdistinct⟩ :=
    Run.zeros_of_synthesize h
  have hclosed := zerosClosed_of_synthesize h
  refine ⟨?_, pairwise_ascending roots, fun root => mem_ascending⟩
  have hseeds : ∀ n ∈ Run.seeds table, n ∈ start.output.delegated ++ Run.seeds table :=
    fun n hn => List.mem_append_right _ hn
  have hcalled := hstart.delegated_eq hclosed
  have hpublics : start.publics table = table.rootNames roots :=
    (Run.publics_congr hsame.symm).trans hroots
  have hdelegated : ∀ n, (∃ other ∈ (run.output.markDiscovered run.requested).methods,
      n ∈ other.delegates) ↔ n ∈ run.output.delegated := by
    intro n
    rw [← List.mem_flatMap, ← Synthesis.delegated, Synthesis.delegated_eq_flatMap,
      Synthesis.predicates_markDiscovered, ← Synthesis.delegated_eq_flatMap]
  refine ⟨?_, hclosed.bodies, ?_, ?_, ?_, ?_, ?_⟩
  · intro type
    simp only [hclosed.covers, hasPredicate_eq_true_iff, get?_eq_some_iff]
  · rw [Synthesis.predicates_markDiscovered]
    exact hm.nodup hdistinct
  · intro called
    rw [Synthesis.predicates_markDiscovered, hm.order, List.filter_append,
      Run.ZerosMade.filter_requested,
      hm.filter_taken hw fun n hn => hstart.hasPredicate_of_delegated hn, hroots, hcalled, hpublics]
  · rw [Synthesis.names_markDiscovered, Synthesis.predicates_markDiscovered, hm.names]
  · intro method hmethod type ht
    have hn : type ∈ run.output.delegated := (hdelegated type).mp ⟨method, hmethod, ht⟩
    exact (hclosed.covers type).mpr (hm.hasPredicate_of_delegated hn)
  · intro method hmethod hf
    have hname : method.type ∈ (run.output.markDiscovered run.requested).names .zeroPredicate :=
      List.mem_map.mpr ⟨method, List.mem_filter.mpr ⟨hmethod, by simpa using hf⟩, rfl⟩
    rw [Synthesis.names_markDiscovered, hm.names, hm.mem_iff hseeds hw] at hname
    rw [Synthesis.discovered_markDiscovered _ _ hmethod hf, hdelegated,
      Run.ZerosMade.mem_requested_iff hname, hroots]

theorem Table.zeroClosure_ring :
    ∃ synthesis, ring.synthesize Reader.language {} ["Ring"] = .ok synthesis ∧
      synthesis.names .zeroPredicate = ["Ring", "Node", "Pair"] ∧
      synthesis.methods.map Method.discovered = [false, false, true, true, true, false] ∧
      ring.ZeroClosure ["Ring"] synthesis :=
  ⟨ringMethods, synthesize_ring, rfl, rfl, (zeroClosure_of_synthesize synthesize_ring).1⟩

end CopySynth
