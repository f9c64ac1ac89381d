import CopySynth.Generation.Closure
import CopySynth.Proofs.CopyBodies
import CopySynth.Proofs.Methods
import CopySynth.Proofs.ZeroBodies

/-!
# The steps of a run

What one request and one turn of a queue do to the state of a run, and the rule by which an
invariant of the turns holds when the queue is worked off. The bound on the turns is never reached:
the names taken are distinct names of the table.
-/

namespace CopySynth.Run

variable {table : Table} {language : Code.Language}

theorem makeCopy_eq (run : Run) (table : Table) (family : Family) (name : String) :
    run.makeCopy table family name = do
      let body ← table.copyBody name
      return { run with
        copies := run.copies.requireAll (table.copyRequests name).2 (table.copyRequests name).1
        output := if body = .trivial then run.output
          else run.output.addCopy name family body (family == .privateCopy) } := by
  unfold makeCopy Table.requestCopy
  cases table.copyBody name with
  | error => rfl
  | ok body => cases body <;> rfl

theorem makeZero_eq (run : Run) (table : Table) (name : String) :
    run.makeZero table name = do
      let body ← table.zeroBody name
      return { run with
        zeros := run.zeros.requireAll ((body.map ZeroBody.delegates).getD []) name
        output := body.elim run.output (run.output.addZero name) } := by
  unfold makeZero Table.requestZero
  cases hb : table.zeroBody name with
  | error => rfl
  | ok body =>
    rw [Table.zeroRequests_eq hb]
    cases body <;> rfl

/-- Making a copy queues the helpers of the body, and adds the body unless there is none. -/
theorem makeCopy_effect {run next : Run} {family : Family} {name : String}
    (h : run.makeCopy table family name = .ok next) :
    ∃ body, table.copyBody name = .ok body ∧
      next = { run with
        copies := run.copies.requireAll (table.copyRequests name).2 (table.copyRequests name).1
        output := if body = .trivial then run.output
          else run.output.addCopy name family body (family == .privateCopy) } := by
  rw [makeCopy_eq] at h
  obtain ⟨body, hb, h⟩ := bind_eq_ok_iff.mp h
  exact ⟨body, hb, (pure_eq_ok_iff.mp h).symm⟩

/-- For a type that is no alias, the body decides what is queued, and a builtin has none. -/
theorem makeCopy_cases {run next : Run} {family : Family} {name : String} {shape : Shape}
    (hg : table.get? name = some (.type shape)) (h : run.makeCopy table family name = .ok next) :
    ∃ body, table.copyBody name = .ok body ∧
      next = { run with
        copies := run.copies.requireAll body.helpers name
        output := if shape.isBuiltin then run.output
          else run.output.addCopy name family body (family == .privateCopy) } := by
  obtain ⟨body, hb, rfl⟩ := makeCopy_effect h
  have hiff : body = .trivial ↔ shape.isBuiltin = true := Table.trivial_iff hg hb
  exact ⟨body, hb, by simp only [Table.copyRequests_eq hg hb, hiff]⟩

/-- Making a predicate queues the types it delegates to, and adds the predicate if there is one. -/
theorem makeZero_cases {run next : Run} {name : String}
    (h : run.makeZero table name = .ok next) :
    ∃ body, table.zeroBody name = .ok body ∧
      next = { run with
        zeros := run.zeros.requireAll ((body.map ZeroBody.delegates).getD []) name
        output := body.elim run.output (run.output.addZero name) } := by
  rw [makeZero_eq] at h
  obtain ⟨body, hb, h⟩ := bind_eq_ok_iff.mp h
  exact ⟨body, hb, (pure_eq_ok_iff.mp h).symm⟩

theorem copyFault_of_makeCopy {run : Run} {family : Family} {name : String}
    {fault : GenerationError} (h : run.makeCopy table family name = .error fault) :
    table.copyBody name = .error fault := by
  rw [makeCopy_eq] at h
  rcases bind_eq_error_iff.mp h with h | ⟨_, _, h⟩
  · exact h
  · cases h

theorem zeroFault_of_makeZero {run : Run} {name : String} {fault : GenerationError}
    (h : run.makeZero table name = .error fault) : table.zeroBody name = .error fault := by
  rw [makeZero_eq] at h
  rcases bind_eq_error_iff.mp h with h | ⟨_, _, h⟩
  · exact h
  · cases h

/-- A request is skipped, or its canonical type receives its methods and is done in both queues. -/
theorem addRoot_cases {run next : Run} {root : String} (h : addRoot table run root = .ok next) :
    ∃ name shape, table.resolve root "root list" = .ok (name, shape) ∧
      (((shape.isCapability = true ∨ name ∈ run.requested) ∧ next = run) ∨
        (shape.isCapability = false ∧ name ∉ run.requested ∧ ∃ copied made,
          { run with requested := run.requested ++ [name] }.makeCopy table .publicCopy name =
            .ok copied ∧
          (if shape.isBuiltin then made = copied else copied.makeZero table name = .ok made) ∧
          next = (made.markDone .privateCopy name).markDone .zeroPredicate name)) := by
  unfold addRoot at h
  obtain ⟨⟨name, shape⟩, hr, h⟩ := bind_eq_ok_iff.mp h
  refine ⟨name, shape, lifted_eq_ok_iff.mp hr, ?_⟩
  dsimp only at h
  split at h
  · rename_i hskip
    exact .inl ⟨by simpa using hskip, (pure_eq_ok_iff.mp h).symm⟩
  · rename_i hskip
    obtain ⟨hcap, hnew⟩ : shape.isCapability = false ∧ name ∉ run.requested := by simpa using hskip
    obtain ⟨copied, hc, h⟩ := bind_eq_ok_iff.mp h
    refine .inr ⟨hcap, hnew, copied, ?_⟩
    split at h
    · rename_i hb
      exact ⟨copied, hc, by rw [if_pos hb], (pure_eq_ok_iff.mp h).symm⟩
    · rename_i hb
      obtain ⟨made, hm, h⟩ := bind_eq_ok_iff.mp h
      exact ⟨made, hc, by rw [if_neg hb]; exact hm, (pure_eq_ok_iff.mp h).symm⟩

/-- One turn of the queue of a family: the name whose turn it is leaves the line, gets its method
unless it names a builtin, and is done. -/
inductive Turn (table : Table) (family : Family) (run : Run) (name : String) : Run → Prop
  | skipped {rest type} (hp : (run.work family).pop? = some (name, rest))
      (hg : table.get? name = some type) (hb : type.isBuiltin = true) :
      Turn table family run name ((run.withWork family rest).markDone family name)
  | made {rest type next} (hp : (run.work family).pop? = some (name, rest))
      (hg : table.get? name = some type) (hb : type.isBuiltin = false)
      (hm : (run.withWork family rest).make table family name = .ok next) :
      Turn table family run name (next.markDone family name)

theorem Turn.mem_names {family : Family} {run next : Run} {name : String}
    (h : Turn table family run name next) : name ∈ table.names := by
  cases h with
  | skipped _ hg _ | made _ hg _ _ => exact Table.mem_names_of_get? hg

/-- Some turns of the queue of a family, with the names taken in order. -/
inductive Turns (table : Table) (family : Family) : Run → List String → Run → Prop
  | done {run} : Turns table family run [] run
  | turn {run name next names final} (h : Turn table family run name next)
      (hs : Turns table family next names final) : Turns table family run (name :: names) final

/-- A property of the names taken and the state that every turn keeps is kept by all of them. -/
theorem Turns.keeps {family : Family} {P : List String → Run → Prop}
    (turn : ∀ taken run name next, P taken run → Turn table family run name next →
      P (taken ++ [name]) next)
    {run final : Run} {names : List String} (h : Turns table family run names final)
    (taken : List String) (hi : P taken run) : P (taken ++ names) final := by
  induction h generalizing taken with
  | done => simpa using hi
  | @turn run name next names final ht _ ih =>
    simpa using ih (taken ++ [name]) (turn taken run name next hi ht)

theorem Turns.mem_names {family : Family} {run final : Run} {names : List String}
    (h : Turns table family run names final) : ∀ n ∈ names, n ∈ table.names := by
  induction h with
  | done => simp
  | @turn run name next names final ht _ ih =>
    intro n hn
    rcases List.mem_cons.mp hn with rfl | hn
    · exact ht.mem_names
    · exact ih n hn

/-- Working off a queue takes turns until nothing waits, or until the bound is reached. -/
theorem turns_of_drain {family : Family} {budget turns made : Nat} {run final : Run}
    (h : drain table family budget turns made run = .ok final) :
    ∃ names, Turns table family run names final ∧
      ((final.work family).pending = [] ∨ names.length = turns) := by
  induction turns generalizing made run with
  | zero =>
    simp only [drain, Except.ok.injEq] at h
    subst h
    exact ⟨[], .done, .inr rfl⟩
  | succ turns ih =>
    rw [drain] at h
    cases hp : (run.work family).pop? with
    | none =>
      simp only [hp, Except.ok.injEq] at h
      subst h
      exact ⟨[], .done, .inl ((Worklist.pop?_eq_none_iff _).mp hp)⟩
    | some head =>
      obtain ⟨name, rest⟩ := head
      simp only [hp] at h
      obtain ⟨type, hl, h⟩ := bind_eq_ok_iff.mp h
      have hg := Table.get?_of_lookup (lifted_eq_ok_iff.mp hl)
      -- whichever turn it is, the rest of the queue follows from the state it leaves
      have step : ∀ {made next}, Turn table family run name next →
          drain table family budget turns made next = .ok final →
          ∃ names, Turns table family run names final ∧
            ((final.work family).pending = [] ∨ names.length = turns + 1) := by
        intro made next ht hd
        obtain ⟨names, hs, hend⟩ := ih hd
        exact ⟨name :: names, .turn ht hs, hend.imp id (by simp)⟩
      split at h
      · rename_i hb
        exact step (.skipped hp hg hb) h
      · rename_i hb
        split at h
        · exact absurd h throw_ne_ok
        · obtain ⟨next, hm, h⟩ := bind_eq_ok_iff.mp h
          exact step (.made hp hg (by simpa using hb) hm) h

theorem Turn.append_mem_names {family : Family} {run next : Run} {name : String}
    (h : Turn table family run name next) {taken : List String}
    (hs : ∀ n ∈ taken, n ∈ table.names) : ∀ n ∈ taken ++ [name], n ∈ table.names :=
  List.forall_mem_append.mpr ⟨hs, List.forall_mem_singleton.mpr h.mem_names⟩

section Invariant

variable {family : Family} {budget : Nat} {P : List String → Run → Prop}
  (distinct : ∀ taken run, P taken run → taken.Nodup)
  (turn : ∀ taken run name next, P taken run → Turn table family run name next →
    P (taken ++ [name]) next)
include distinct turn

/-- A property of the names taken and the state that every turn keeps holds when the queue is worked
off, which it is at the end: the turns would have to exceed the distinct names of the table. -/
theorem drain_induct {made : Nat} {run final : Run}
    (h : drain table family budget (table.size + 1) made run = .ok final) (hi : P [] run) :
    ∃ all, P all final ∧ (∀ n ∈ all, n ∈ table.names) ∧ (final.work family).pending = [] := by
  obtain ⟨names, hs, hend⟩ := turns_of_drain h
  have hall : P names final := hs.keeps turn [] hi
  refine ⟨names, hall, hs.mem_names, hend.resolve_right fun hlen => ?_⟩
  have hle := Table.length_le_size (distinct names final hall) hs.mem_names
  omega

/-- Turns beyond the number of names of the table change nothing. -/
theorem drain_add {turns made : Nat} {taken : List String} {run : Run} (hi : P taken run)
    (hs : ∀ n ∈ taken, n ∈ table.names) (ht : table.size < turns + taken.length) (more : Nat) :
    drain table family budget (turns + more) made run =
      drain table family budget turns made run := by
  induction turns generalizing made taken run with
  | zero =>
    have := Table.length_le_size (distinct taken run hi) hs
    omega
  | succ turns ih =>
    rw [Nat.succ_add, drain, drain]
    cases hp : (run.work family).pop? with
    | none => rfl
    | some head =>
      obtain ⟨name, rest⟩ := head
      dsimp only
      cases hg : table.get? name with
      | none => rw [Table.lookup, hg]; rfl
      | some type =>
        have step : ∀ {made next}, Turn table family run name next →
            drain table family budget (turns + more) made next =
              drain table family budget turns made next :=
          fun hturn => ih (turn taken run name _ hi hturn) (hturn.append_mem_names hs)
            (by rw [List.length_append, List.length_singleton]; omega)
        rw [Table.lookup, hg, lifted, ok_bind, ok_bind]
        split
        · rename_i hbuiltin
          exact step (.skipped hp hg hbuiltin)
        · rename_i hbuiltin
          split
          · rfl
          · cases hmake : (run.withWork family rest).make table family name with
            | error fault => rfl
            | ok next => exact step (.made hp hg (by simpa using hbuiltin) hmake)

end Invariant

/-! ## What stays as it is -/

/-- Two states agree in all that concerns copies. -/
structure SameCopies (run next : Run) : Prop where
  work : next.copies = run.copies
  requested : next.requested = run.requested
  copies : next.output.copies = run.output.copies
  names : ∀ family, family ≠ .zeroPredicate → next.output.names family = run.output.names family
  capabilities : next.output.capabilities = run.output.capabilities

/-- Two states agree in all that concerns zero predicates. -/
structure SamePredicates (run next : Run) : Prop where
  work : next.zeros = run.zeros
  requested : next.requested = run.requested
  predicates : next.output.predicates = run.output.predicates
  names : next.output.names .zeroPredicate = run.output.names .zeroPredicate

theorem SameCopies.trans {a b c : Run} (h : SameCopies a b) (h' : SameCopies b c) :
    SameCopies a c :=
  ⟨h'.work.trans h.work, h'.requested.trans h.requested, h'.copies.trans h.copies,
    fun family hf => (h'.names family hf).trans (h.names family hf),
    h'.capabilities.trans h.capabilities⟩

theorem SamePredicates.trans {a b c : Run} (h : SamePredicates a b) (h' : SamePredicates b c) :
    SamePredicates a c :=
  ⟨h'.work.trans h.work, h'.requested.trans h.requested, h'.predicates.trans h.predicates,
    h'.names.trans h.names⟩

/-- The turns of the zero predicates leave the copies alone. -/
theorem Turn.sameCopies {run next : Run} {name : String}
    (h : Turn table .zeroPredicate run name next) : SameCopies run next := by
  cases h with
  | skipped => exact ⟨rfl, rfl, rfl, fun _ _ => rfl, rfl⟩
  | made _ _ _ hm =>
    obtain ⟨body, _, rfl⟩ := makeZero_cases hm
    cases body with
    | none => exact ⟨rfl, rfl, rfl, fun _ _ => rfl, rfl⟩
    | some body =>
      refine ⟨rfl, rfl, ?_, fun family hf => ?_, rfl⟩
      · simp [markDone, withWork]
      · simp [markDone, withWork, Ne.symm hf]

/-- The turns of the copies leave the zero predicates alone. -/
theorem Turn.samePredicates {run next : Run} {name : String}
    (h : Turn table .privateCopy run name next) : SamePredicates run next := by
  cases h with
  | skipped => exact ⟨rfl, rfl, rfl, rfl⟩
  | made _ _ _ hm =>
    obtain ⟨body, _, rfl⟩ := makeCopy_effect hm
    by_cases hb : body = .trivial
    · refine ⟨rfl, rfl, ?_, ?_⟩ <;> simp [markDone, withWork, hb]
    · refine ⟨rfl, rfl, ?_, ?_⟩ <;> simp [markDone, withWork, hb]

theorem Turns.sameCopies {run final : Run} {names : List String}
    (h : Turns table .zeroPredicate run names final) : SameCopies run final :=
  h.keeps (P := fun _ next => SameCopies run next) (fun _ _ _ _ hi ht => hi.trans ht.sameCopies) []
    ⟨rfl, rfl, rfl, fun _ _ => rfl, rfl⟩

theorem Turns.samePredicates {run final : Run} {names : List String}
    (h : Turns table .privateCopy run names final) : SamePredicates run final :=
  h.keeps (P := fun _ next => SamePredicates run next)
    (fun _ _ _ _ hi ht => hi.trans ht.samePredicates) [] ⟨rfl, rfl, rfl, rfl⟩

/-- The three phases of a run: the requests, the queue of the copies, and the queue of the zero
predicates. -/
theorem phases_of_synthesize {config : Config} {roots : List String} {synthesis : Synthesis}
    (h : table.synthesize language config roots = .ok synthesis) :
    ∃ requested copied final,
      (ascending roots).foldlM (addRoot table) {} = .ok requested ∧
      drain table .privateCopy (config.budget table.size) (table.size + 1) 0 requested =
        .ok copied ∧
      drain table .zeroPredicate (config.budget table.size) (table.size + 1) 0
        (copied.queueAll table) = .ok final ∧
      synthesis = final.output.markDiscovered final.requested := by
  have run : table.makeMethods (config.budget table.size) (table.size + 1) roots =
      .ok synthesis := by
    unfold Table.synthesize Table.synthesizeWithin at h
    split at h
    · obtain ⟨_, _, h⟩ := bind_eq_ok_iff.mp h
      exact h
    · exact h
  obtain ⟨requested, hq, run⟩ := bind_eq_ok_iff.mp run
  obtain ⟨copied, hc, run⟩ := bind_eq_ok_iff.mp run
  obtain ⟨final, hf, run⟩ := bind_eq_ok_iff.mp run
  exact ⟨requested, copied, final, hq, hc, hf, (pure_eq_ok_iff.mp run).symm⟩

/-- A run fails in one of its phases: the check of the table, the requests, the queue of the copies,
or that of the zero predicates. -/
inductive Fails (table : Table) (language : Code.Language) (turns : Nat) (config : Config)
    (roots : List String) : GenerationError → Prop
  | check {cause} (hc : config.validate = true) (h : table.validate language = .error cause) :
      Fails table language turns config roots (.ofSchema cause)
  | requests {fault} (h : (ascending roots).foldlM (addRoot table) {} = .error fault) :
      Fails table language turns config roots fault
  | copies {requested fault} (hq : (ascending roots).foldlM (addRoot table) {} = .ok requested)
      (h : drain table .privateCopy (config.budget table.size) turns 0 requested = .error fault) :
      Fails table language turns config roots fault
  | zeros {requested copied fault}
      (hq : (ascending roots).foldlM (addRoot table) {} = .ok requested)
      (hc : drain table .privateCopy (config.budget table.size) turns 0 requested = .ok copied)
      (h : drain table .zeroPredicate (config.budget table.size) turns 0 (copied.queueAll table) =
        .error fault) :
      Fails table language turns config roots fault

theorem fails_of_synthesizeWithin {turns : Nat} {config : Config} {roots : List String}
    {fault : GenerationError}
    (h : table.synthesizeWithin language turns config roots = .error fault) :
    Fails table language turns config roots fault := by
  have phases (run : table.makeMethods (config.budget table.size) turns roots = .error fault) :
      Fails table language turns config roots fault := by
    rcases bind_eq_error_iff.mp run with hfault | ⟨requested, hq, run⟩
    · exact .requests hfault
    rcases bind_eq_error_iff.mp run with hfault | ⟨copied, hc, run⟩
    · exact .copies hq hfault
    rcases bind_eq_error_iff.mp run with hfault | ⟨final, _, run⟩
    · exact .zeros hq hc hfault
    · cases run
  unfold Table.synthesizeWithin at h
  split at h
  · rename_i hcheck
    cases hv : table.validate language with
    | error cause =>
      rw [hv] at h
      cases h
      exact .check hcheck hv
    | ok =>
      rw [hv] at h
      exact phases h
  · exact phases h

end CopySynth.Run
