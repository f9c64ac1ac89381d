import CopySynth.Proofs.Memory
import CopySynth.Proofs.QueueStops

/-!
# Where a run without a limit can fail

A queue hands out distinct names of the table. So it is worked off within as many turns as the table
has types, and a family never uses up the budget that it has when none is given. What remains are
the faults of the check, of the requests, and of single copies and predicates.
-/

namespace CopySynth

/-- Whether a fault says that a family used up its budget. -/
def GenerationError.outOfBudget : GenerationError → Bool
  | .nonTerminating _ _ _ _ => true
  | _ => false

/-- The step does not fail for want of a budget. -/
def Terminates {α : Type} (step : Except GenerationError α) : Prop :=
  FailsOnly (fun fault => fault.outOfBudget = false) step

namespace Table

/-! ## What a body fails at -/

section Bodies

variable {table : Table} {P : GenerationError → Prop}
  (value : ∀ ref context, FailsOnly P (table.isValue ref context))
  (leads : ∀ name context, FailsOnly P (lifted (table.resolve name context)))
  (shape : ∀ type fault, P (.unsupportedShape type fault))
include value leads shape

theorem failsOnly_elementCopy (owner slot : String) (ref : Ref) :
    FailsOnly P (table.elementCopy owner slot ref) := by
  unfold elementCopy
  refine .bind (value _ _) fun answer => ?_
  split
  · exact .ok _
  · split
    · exact .error (shape _ _)
    · refine .bind (leads _ _) fun found => ?_
      dsimp only
      split
      · exact .ok _
      · split
        · exact .ok _
        · exact .ok _

/-- A copy fails as a question about a value type does, as the way behind a name does, or because no
rule applies. -/
theorem failsOnly_copyBody (name : String) : FailsOnly P (table.copyBody name) := by
  unfold copyBody
  refine .bind (leads _ _) fun (owner, found) => ?_
  dsimp only
  split
  · exact .error (shape _ _)
  · split
    · exact .ok _
    · refine .bind (value _ _) fun answer => ?_
      have hcopy := failsOnly_elementCopy value leads shape owner
      split
      · exact .ok _
      · cases found with
        | builtin => exact .ok _
        | fixed | dynamic => exact .bind (hcopy _ _) fun _ => .ok _
        | record =>
          refine .bind (.mapM fun (field, ref) _ => ?_) fun _ => .ok _
          exact .bind (hcopy _ _) fun _ => .ok _

theorem failsOnly_zeroTest (owner context : String) (ref : Ref) :
    FailsOnly P (table.zeroTest owner context ref) := by
  cases ref with
  | inline fields =>
    refine .bind (value _ _) fun answer => ?_
    split
    · exact .ok _
    · exact .error (shape _ _)
  | named target =>
    refine .bind (leads _ _) fun (canonical, found) => ?_
    dsimp only
    split
    · exact .ok _
    · refine .bind (value _ _) fun answer => ?_
      split
      · exact .ok _
      · cases found <;> exact .ok _

/-- A predicate fails like a copy, or because there is no type of its name. -/
theorem failsOnly_zeroBody (missing : ∀ name context, P (.unresolvedType name context))
    (name : String) : FailsOnly P (table.zeroBody name) := by
  have htest := failsOnly_zeroTest value leads shape name
  have spelled (found : Shape) : FailsOnly P (table.spelledZero name found) := by
    cases found with
    | builtin => exact .error (shape _ _)
    | dynamic => exact .ok _
    | fixed => exact .bind (htest _ _) fun _ => .ok _
    | record =>
      refine .bind (.mapM fun (field, ref) _ => ?_) fun _ => .ok _
      exact .bind (htest _ _) fun _ => .ok _
  have known : FailsOnly P (lifted (table.lookup name predicateContext)) := by
    unfold lookup
    split
    · exact .ok _
    · exact .error (missing _ _)
  unfold zeroBody
  refine .bind known fun type => ?_
  cases type with
  | aliasOf => exact .ok _
  | type found =>
    dsimp only
    split
    · refine .bind (value _ _) fun answer => ?_
      split
      · exact .ok _
      · exact spelled found
    · exact spelled found

end Bodies

variable {table : Table} {language : Code.Language}

/-! ## Faults that are no want of a budget -/

theorem terminates_lifted {α : Type} (step : Except SchemaError α) : Terminates (lifted step) := by
  cases step with
  | ok result => exact FailsOnly.ok result
  | error fault => cases fault <;> exact FailsOnly.error rfl

theorem terminates_judge (steps : Nat) (path : List String) (mention : Mention) :
    Terminates (table.judge steps path mention) := by
  induction steps generalizing path mention with
  | zero => exact FailsOnly.error rfl
  | succ steps ih =>
    rw [judge]
    split
    · exact FailsOnly.error rfl
    · split
      · exact FailsOnly.error rfl
      · split
        · exact FailsOnly.ok false
        · exact FailsOnly.allM fun _ _ => ih _ _

theorem terminates_isValue (ref : Ref) (context : String) :
    Terminates (table.isValue ref context) := by
  rw [isValue_eq]
  exact FailsOnly.allM fun _ _ => terminates_judge _ _ _

theorem terminates_copyBody (name : String) : Terminates (table.copyBody name) :=
  failsOnly_copyBody terminates_isValue (fun _ _ => terminates_lifted _) (fun _ _ => rfl) name

theorem terminates_zeroBody (name : String) : Terminates (table.zeroBody name) :=
  failsOnly_zeroBody terminates_isValue (fun _ _ => terminates_lifted _) (fun _ _ => rfl)
    (fun _ _ => rfl) name

/-- The faults of a run without a limit: of the check, of a request, of a copy that is needed, or of
a predicate of the table. -/
inductive Fault (table : Table) (language : Code.Language) (config : Config)
    (roots : List String) : GenerationError → Prop
  | check {fault} (hc : config.validate = true) (h : table.validate language = .error fault) :
      Fault table language config roots (.ofSchema fault)
  | request {root fault} (hr : root ∈ roots) (h : table.resolve root "root list" = .error fault) :
      Fault table language config roots (.ofSchema fault)
  | copy {type fault} (hn : table.CopyNeeded (table.rootNames roots) type)
      (h : table.copyBody type = .error fault) : Fault table language config roots fault
  | zero {type fault} (hp : table.hasPredicate type = true)
      (h : table.zeroBody type = .error fault) : Fault table language config roots fault

theorem Fault.outOfBudget_eq {config : Config} {roots : List String} {fault : GenerationError}
    (h : table.Fault language config roots fault) : fault.outOfBudget = false := by
  cases h with
  | @check cause | @request _ cause => cases cause <;> rfl
  | copy _ h => exact terminates_copyBody _ _ h
  | zero _ h => exact terminates_zeroBody _ _ h

/-- A builtin that is no interface copies itself, so it is never at fault. -/
theorem not_isBuiltin_of_copyFault {name : String} {shape : Shape} {fault : GenerationError}
    (hg : table.get? name = some (.type shape)) (hc : shape.isCapability = false)
    (h : table.copyBody name = .error fault) : shape.isBuiltin = false := by
  cases hb : shape.isBuiltin with
  | false => rfl
  | true =>
    rw [copyBody, resolve_of_get? _ hg, lifted, ok_bind] at h
    dsimp only at h
    rw [if_neg (by simp [hc]), if_pos hb] at h
    cases h

end Table

namespace Run

variable {table : Table} {language : Code.Language}

/-- A request fails because its name leads nowhere, or at one of the bodies of its type. -/
theorem fault_of_addRoot {run : Run} {root : String} {fault : GenerationError}
    (h : addRoot table run root = .error fault) :
    (∃ cause, table.resolve root "root list" = .error cause ∧ fault = .ofSchema cause) ∨
    ∃ name shape, table.resolve root "root list" = .ok (name, shape) ∧
      shape.isCapability = false ∧ (table.copyBody name = .error fault ∨
        (shape.isBuiltin = false ∧ table.zeroBody name = .error fault)) := by
  unfold addRoot at h
  cases hr : table.resolve root "root list" with
  | error cause =>
    rw [hr] at h
    exact .inl ⟨cause, rfl, by cases h; rfl⟩
  | ok found =>
    obtain ⟨name, shape⟩ := found
    rw [hr, lifted, ok_bind] at h
    dsimp only at h
    split at h
    · cases h
    · rename_i hskip
      have hc : shape.isCapability = false := by
        cases hc : shape.isCapability <;> simp [hc] at hskip ⊢
      refine .inr ⟨name, shape, rfl, hc, ?_⟩
      rcases bind_eq_error_iff.mp h with h | ⟨copied, _, h⟩
      · exact .inl (copyFault_of_makeCopy h)
      · split at h
        · cases h
        · rename_i hb
          rcases bind_eq_error_iff.mp h with h | ⟨_, _, h⟩
          · exact .inr ⟨by simpa using hb, zeroFault_of_makeZero h⟩
          · cases h

theorem fault_of_roots {config : Config} {roots : List String} {fault : GenerationError}
    (h : (ascending roots).foldlM (addRoot table) {} = .error fault) :
    table.Fault language config roots fault := by
  obtain ⟨root, hm, run, hfault⟩ := exists_of_foldlM_eq_error h
  rcases fault_of_addRoot hfault with ⟨cause, hr, rfl⟩ | ⟨name, shape, hr, hc, hbody⟩
  · exact .request (mem_ascending.mp hm) hr
  have hg := Table.get?_of_resolve hr
  rcases hbody with hcopy | ⟨hb, hzero⟩
  · -- the type is no builtin, so it is one of the roots
    have hb := Table.not_isBuiltin_of_copyFault hg hc hcopy
    refine .copy (.start (List.mem_eraseDups.mpr (List.mem_filterMap.mpr ⟨root, hm, ?_⟩))) hcopy
    rw [Table.rootName?, hr]
    simp [hb]
  · exact .zero (Table.hasPredicate_of_zeroFault hg hb hzero) hzero

/-! ## Queues -/

variable {config : Config} {roots : List String} {start : Run} {budget turns : Nat}
  {fault : GenerationError}

/-- What the queue of the copies fails at is a copy that is needed. -/
theorem fault_of_copies (hq : (ascending roots).foldlM (addRoot table) {} = .ok start)
    (h : drain table .privateCopy budget turns 0 start = .error fault) :
    table.Fault language config roots fault ∨ (fault.outOfBudget = true ∧ budget < table.size) := by
  rcases stop_of_copies hq h with ⟨type, hn, hcopy⟩ | ⟨⟨_, _, rfl⟩, types, hnodup, hall, hlt⟩
  · exact .inl (.copy hn hcopy)
  · -- there are no more types than the table has names
    have hle := Table.length_le_size hnodup fun type ht => by
      obtain ⟨shape, hg, _⟩ := (hall type ht).1.get?
      exact Table.mem_names_of_get? hg
    exact .inr ⟨rfl, by omega⟩

/-- What the queue of the predicates fails at is a predicate of the table. -/
theorem fault_of_zeros {copied : Run}
    (hq : (ascending roots).foldlM (addRoot table) {} = .ok start)
    (hs : SamePredicates start copied)
    (h : drain table .zeroPredicate budget turns 0 (copied.queueAll table) = .error fault) :
    table.Fault language config roots fault ∨ (fault.outOfBudget = true ∧ budget < table.size) := by
  rcases stop_of_zeros hq hs h with ⟨type, hp, hzero⟩ | ⟨⟨_, _, rfl⟩, hlt⟩
  · exact .inl (.zero hp hzero)
  · have hdistinct : (seeds table).Nodup := table.distinct_names.filter _
    have hle := Table.length_le_size (hdistinct.filter (· ∉ table.rootNames roots)) fun n hn =>
      (List.mem_filter.mp (List.mem_filter.mp hn).1).1
    exact .inr ⟨rfl, by omega⟩

end Run

namespace Table

variable {table : Table} {language : Code.Language} {config : Config} {roots : List String}

/-- However many turns the queues may take, a run has no other faults, unless a family uses up a
budget that is less than the names of the table. -/
theorem fault_or_outOfBudget {turns : Nat} {fault : GenerationError}
    (h : table.synthesizeWithin language turns config roots = .error fault) :
    table.Fault language config roots fault ∨
      (fault.outOfBudget = true ∧ config.budget table.size < table.size) := by
  cases Run.fails_of_synthesizeWithin h with
  | check hc hv => exact .inl (.check hc hv)
  | requests hfault => exact .inl (Run.fault_of_roots hfault)
  | copies hq hfault => exact Run.fault_of_copies hq hfault
  | zeros hq hc hfault =>
    -- the copies have left the predicates of the requests alone
    obtain ⟨_, hturns, -⟩ := Run.turns_of_drain hc
    exact Run.fault_of_zeros hq hturns.samePredicates hfault

/-- A run without a limit has no other faults. -/
theorem fault_of_synthesizeWithin {turns : Nat} {fault : GenerationError}
    (hm : config.maxSteps = none)
    (h : table.synthesizeWithin language turns config roots = .error fault) :
    table.Fault language config roots fault := by
  refine (fault_or_outOfBudget h).resolve_right fun hout => ?_
  have hlt := hout.2
  simp only [Config.budget, hm, Option.getD_none] at hlt
  omega

/-! ## The number of turns -/

/-- What is made does not depend on the number of turns beyond that of the names: a queue hands out
each name once, so it is at its end, or has stopped at its budget or a fault, before its turns run
out. -/
theorem makeMethods_add (budget more : Nat) :
    table.makeMethods budget (table.size + 1 + more) roots =
      table.makeMethods budget (table.size + 1) roots := by
  unfold makeMethods
  cases hq : (ascending roots).foldlM (Run.addRoot table) {} with
  | error => rfl
  | ok start =>
    have hcopies : Run.drain table .privateCopy budget (table.size + 1 + more) 0 start =
        Run.drain table .privateCopy budget (table.size + 1) 0 start :=
      Run.drain_add (P := Run.CopiesMade table) (fun taken run hi => hi.nodup_taken)
        (fun taken run name next hi ht => hi.turn ht) (Run.copiesMade_of_roots hq).2 (by simp)
        (Nat.lt_succ_self _) more
    simp only [ok_bind, hcopies]
    cases hc : Run.drain table .privateCopy budget (table.size + 1) 0 start with
    | error => rfl
    | ok copied =>
      obtain ⟨_, hturns, -⟩ := Run.turns_of_drain hc
      have hmade := (Run.zerosMade_of_roots hq).2.of_samePredicates hturns.samePredicates
      have hzeros : Run.drain table .zeroPredicate budget (table.size + 1 + more) 0
          (copied.queueAll table) =
          Run.drain table .zeroPredicate budget (table.size + 1) 0 (copied.queueAll table) :=
        Run.drain_add (fun taken run hi => hi.nodup_taken)
          (fun taken run name next hi ht => hi.turn (fun n hn => List.mem_append_right _ hn) ht)
          hmade.queueAll (by simp) (Nat.lt_succ_self _) more
      simp only [ok_bind, hzeros]

/-- For every configuration, with a limit or without, a run with more turns than names is the run.
All that holds of runs holds for any such number of turns. -/
theorem synthesizeWithin_eq {turns : Nat} (ht : table.size < turns) :
    table.synthesizeWithin language turns config roots = table.synthesize language config roots := by
  obtain ⟨more, rfl⟩ : ∃ more, turns = table.size + 1 + more :=
    ⟨turns - (table.size + 1), by omega⟩
  rw [synthesize, synthesizeWithin, synthesizeWithin, makeMethods_add]

end Table

end CopySynth
