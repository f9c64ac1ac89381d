import CopySynth.Proofs.Budgets

/-!
# Runs with a limit

A limit on the bodies of a family does not change what a run makes, it only cuts runs off. A queue
takes its turns with a limit as it does without, and comes to its end unless it hands out more names
than the limit allows. For the copies each of these names is that of a body. The queue of the zero
predicates hands out the aliases and the growable sequences of the table as well, which use up the
limit without a body.
-/

namespace CopySynth

namespace Run

variable {table : Table} {budget : Nat} {roots : List String} {start copied final : Run}

/-- The names that the queue of the copies hands out are the private copies made from it. -/
theorem copies_limited (hq : (ascending roots).foldlM (addRoot table) {} = .ok start)
    (hc : drain table .privateCopy budget (table.size + 1) 0 start = .ok copied) (limit : Nat) :
    ((copied.output.names .privateCopy).length ≤ limit →
      drain table .privateCopy limit (table.size + 1) 0 start = .ok copied) ∧
    (limit < (copied.output.names .privateCopy).length → ∃ chain pending,
      drain table .privateCopy limit (table.size + 1) 0 start =
        .error (.nonTerminating .privateCopy limit chain pending)) := by
  obtain ⟨all, hcopied, -, hcases⟩ := drain_limited
    (fun _ _ _ _ hi ht => CopiesTaken.turn hi ht)
    (fun _ _ _ _ hi hp => hi.made.proper hp) limit [] hc (.initial hq) (Nat.zero_le _)
  rwa [hcopied.made.privateNames]

/-- The names that the queue of the predicates hands out are those of the table that are no builtins
and no roots. -/
theorem zeros_limited (hq : (ascending roots).foldlM (addRoot table) {} = .ok start)
    (hs : SamePredicates start copied)
    (hf : drain table .zeroPredicate budget (table.size + 1) 0 (copied.queueAll table) = .ok final)
    (limit : Nat) :
    let due := (seeds table).filter (· ∉ table.rootNames roots)
    (due.length ≤ limit →
      drain table .zeroPredicate limit (table.size + 1) 0 (copied.queueAll table) = .ok final) ∧
    (limit < due.length → ∃ chain pending,
      drain table .zeroPredicate limit (table.size + 1) 0 (copied.queueAll table) =
        .error (.nonTerminating .zeroPredicate limit chain pending)) := by
  intro due
  obtain ⟨_, _, _, hw⟩ := drain_induct (fun _ _ hi => hi.made.nodup_taken)
    (fun _ _ _ _ hi ht => ZerosTaken.turn hi ht) hf (.initial hq hs)
  have hw : final.zeros.pending = [] := hw
  obtain ⟨all, hfinal, -, hcases⟩ := drain_limited
    (fun _ _ _ _ hi ht => ZerosTaken.turn hi ht)
    (fun _ _ _ _ hi hp => hi.proper hp) limit [] hf (.initial hq hs) (Nat.zero_le _)
  have hdue : due.Nodup := (table.distinct_names.filter _).filter _
  have hmem : ∀ n, n ∈ all ↔ n ∈ due := fun n => by
    rw [← hfinal.mem_iff, hw, or_iff_left List.not_mem_nil]
  rwa [← ((List.perm_ext_iff_of_nodup hfinal.made.nodup_taken hdue).mpr hmem).length_eq]

end Run

namespace Table

/-- Whether a name of the table is that of an alias or a growable sequence, which comes up for a
predicate but has none. -/
def comesUpBodiless (table : Table) (name : String) : Bool :=
  match table.get? name with
  | some (.aliasOf _) | some (.type (.dynamic _)) => true
  | _ => false

/-- The aliases and growable sequences of the table that are no roots. -/
def bodiless (table : Table) (roots : List String) : List String :=
  table.names.filter fun name => table.comesUpBodiless name ∧ name ∉ table.rootNames roots

variable {table : Table} {language : Code.Language} {config : Config} {roots : List String}
  {synthesis : Synthesis}

/-- A name of the table is a builtin, has a predicate or comes up without one. -/
theorem comesUpBodiless_eq {name : String} (hn : name ∈ table.names) :
    table.comesUpBodiless name = (!table.namesBuiltin name && !table.hasPredicate name) := by
  obtain ⟨type, hg⟩ := Option.isSome_iff_exists.mp ((get?_isSome_iff table name).mpr hn)
  rw [comesUpBodiless, namesBuiltin, hasPredicate, hg]
  cases type with
  | aliasOf => rfl
  | type shape => cases shape <;> rfl

/-- What comes up in the queue of the predicates are the predicates of types that are no roots, and
the names that have none. -/
theorem length_due (h : table.synthesize language config roots = .ok synthesis) :
    ((Run.seeds table).filter (· ∉ table.rootNames roots)).length =
      ((synthesis.names .zeroPredicate).filter (· ∉ table.rootNames roots)).length +
        (table.bodiless roots).length := by
  have hzeros := (zeroClosure_of_synthesize h).1
  have hdue : ((Run.seeds table).filter (· ∉ table.rootNames roots)).Nodup :=
    (table.distinct_names.filter _).filter _
  rw [List.length_eq_length_filter_add table.hasPredicate]
  congr 1
  · have hmade : ((synthesis.names .zeroPredicate).filter (· ∉ table.rootNames roots)).Nodup := by
      rw [hzeros.names]
      exact hzeros.once.filter _
    refine ((List.perm_ext_iff_of_nodup (hdue.filter _) hmade).mpr fun n => ?_).length_eq
    have hcovers : n ∈ synthesis.names .zeroPredicate ↔ table.hasPredicate n = true := by
      rw [hzeros.names, ← (zerosClosed_of_synthesize h).covers, Synthesis.zeroBody?_eq_get?]
      exact (Fields.get?_isSome_iff _ _).symm
    simp only [List.mem_filter, hcovers, Run.seeds]
    constructor
    · rintro ⟨⟨-, hroot⟩, hp⟩
      exact ⟨hp, hroot⟩
    · rintro ⟨hp, hroot⟩
      exact ⟨⟨⟨mem_names_of_hasPredicate hp, by simp [not_namesBuiltin hp]⟩, hroot⟩, hp⟩
  · rw [Run.seeds, List.filter_filter, List.filter_filter, bodiless]
    refine congrArg List.length (List.filter_congr fun n hn => ?_)
    simp [comesUpBodiless_eq hn, Bool.and_assoc, Bool.and_left_comm, Bool.and_comm]

/-- What a limit does to a run, in any number of turns that exceeds the number of names. -/
theorem synthesizeWithin_limited {turns : Nat} (ht : table.size < turns)
    (h : table.synthesize language { config with maxSteps := none } roots = .ok synthesis)
    (limit : Nat) :
    let copies := (synthesis.names .privateCopy).length
    let due := ((synthesis.names .zeroPredicate).filter (· ∉ table.rootNames roots)).length +
      (table.bodiless roots).length
    let limited := table.synthesizeWithin language turns { config with maxSteps := some limit } roots
    (copies ≤ limit → due ≤ limit → limited = .ok synthesis) ∧
    (limit < copies → ∃ chain pending,
      limited = .error (.nonTerminating .privateCopy limit chain pending)) ∧
    (copies ≤ limit → limit < due → ∃ chain pending,
      limited = .error (.nonTerminating .zeroPredicate limit chain pending)) := by
  intro copies due limited
  obtain ⟨start, copied, final, hq, hc, hf, hsynth⟩ := Run.phases_of_synthesize h
  obtain ⟨_, hturns, -⟩ := Run.turns_of_drain hc
  obtain ⟨_, hzeroTurns, -⟩ := Run.turns_of_drain hf
  have hcopies : copies = (copied.output.names .privateCopy).length := by
    have hsame : final.output.names .privateCopy = copied.output.names .privateCopy :=
      hzeroTurns.sameCopies.names .privateCopy (by decide)
    rw [← hsame, ← Synthesis.names_markDiscovered, ← hsynth]
  have hrun : limited = table.makeMethods limit (table.size + 1) roots := by
    unfold limited
    rw [synthesizeWithin_eq ht, synthesize, synthesizeWithin]
    split
    · rename_i hv
      rw [(succeeds_of_synthesize h).check hv]
      rfl
    · rfl
  obtain ⟨hdone, hcut⟩ := Run.copies_limited hq hc limit
  obtain ⟨hzeroDone, hzeroCut⟩ := Run.zeros_limited hq hturns.samePredicates hf limit
  rw [length_due h] at hzeroDone hzeroCut
  rw [← hcopies] at hdone hcut
  rw [hrun, makeMethods, hq, ok_bind]
  refine ⟨fun hfits hdue => ?_, fun hlt => ?_, fun hfits hlt => ?_⟩
  · rw [hdone hfits, ok_bind, hzeroDone hdue, ok_bind, hsynth]
    rfl
  · obtain ⟨chain, pending, hstop⟩ := hcut hlt
    exact ⟨chain, pending, by rw [hstop]; rfl⟩
  · obtain ⟨chain, pending, hstop⟩ := hzeroCut hlt
    exact ⟨chain, pending, by rw [hdone hfits, ok_bind, hstop]; rfl⟩

/-- A limit on the bodies of a family only cuts runs off. If a run without a limit succeeds, it
succeeds with one and makes the same, unless there are more private copies than the limit allows, or
more predicates of types that are no roots together with aliases and growable sequences that are no
roots. Otherwise it does not terminate within the limit, in the family of the copies if they exceed
the limit and else in that of the predicates. -/
theorem synthesize_limited
    (h : table.synthesize language { config with maxSteps := none } roots = .ok synthesis)
    (limit : Nat) :
    let copies := (synthesis.names .privateCopy).length
    let due := ((synthesis.names .zeroPredicate).filter (· ∉ table.rootNames roots)).length +
      (table.bodiless roots).length
    let limited := table.synthesize language { config with maxSteps := some limit } roots
    (copies ≤ limit → due ≤ limit → limited = .ok synthesis) ∧
    (limit < copies → ∃ chain pending,
      limited = .error (.nonTerminating .privateCopy limit chain pending)) ∧
    (copies ≤ limit → limit < due → ∃ chain pending,
      limited = .error (.nonTerminating .zeroPredicate limit chain pending)) :=
  synthesizeWithin_limited (Nat.lt_succ_self table.size) h limit

/-- Two copies are made beside that of the root, and four names come up for a predicate. -/
theorem synthesize_limited_ring :
    ∃ synthesis, ring.synthesize Reader.language {} ["Ring"] = .ok synthesis ∧
      ring.synthesize Reader.language { maxSteps := some 4 } ["Ring"] = .ok synthesis ∧
      (∃ chain pending, ring.synthesize Reader.language { maxSteps := some 1 } ["Ring"] =
        .error (.nonTerminating .privateCopy 1 chain pending)) ∧
      ∃ chain pending, ring.synthesize Reader.language { maxSteps := some 3 } ["Ring"] =
        .error (.nonTerminating .zeroPredicate 3 chain pending) := by
  have h : ring.synthesize Reader.language { ({} : Config) with maxSteps := none } ["Ring"] =
      .ok ringMethods :=
    synthesize_ring
  exact ⟨ringMethods, h, (synthesize_limited h 4).1 (by decide +kernel) (by decide +kernel),
    (synthesize_limited h 1).2.1 (by decide +kernel),
    (synthesize_limited h 3).2.2 (by decide +kernel) (by decide +kernel)⟩

/-- The two copies and the two predicates beside those of the root do not fit into a limit of two:
the other two names use it up. -/
theorem synthesize_ring_of_two :
    ∃ synthesis, ring.synthesize Reader.language {} ["Ring"] = .ok synthesis ∧
      synthesis.names .privateCopy = ["Node", "Nodes"] ∧
      (synthesis.names .zeroPredicate).filter (· ∉ ring.rootNames ["Ring"]) = ["Node", "Pair"] ∧
      ring.synthesize Reader.language { maxSteps := some 2 } ["Ring"] =
        .error (.nonTerminating .zeroPredicate 2 ["Link"] ["Link", "Pair"]) :=
  ⟨ringMethods, synthesize_ring, rfl, rfl, rfl⟩

end Table

end CopySynth
