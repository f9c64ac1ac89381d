import CopySynth.Proofs.MadeMethods
import CopySynth.Proofs.Outcome

/-!
# What it takes for a run to succeed

A run succeeds when all that is asked of it can be made within the budgets of the families. What
that is the table and the roots decide, so whether a run succeeds does not depend on the order in
which its queues are worked off.
-/

namespace CopySynth

namespace Table

variable {table : Table} {language : Code.Language} {config : Config} {roots others : List String}

/-- What it takes for a run to succeed. -/
structure Succeeds (table : Table) (language : Code.Language) (config : Config)
    (roots : List String) : Prop where
  /-- The table passes its check, if it is checked. -/
  check : config.validate = true → table.validate language = .ok ()
  /-- The requested names lead to types. -/
  requests : ∀ root ∈ roots, ∃ found, table.resolve root "root list" = .ok found
  /-- The copies that are needed can be made. -/
  copies : ∀ type, table.CopyNeeded (table.rootNames roots) type →
    ∃ body, table.copyBody type = .ok body
  /-- The predicates of the table can be made. -/
  zeros : ∀ type, table.hasPredicate type = true → ∃ body, table.zeroBody type = .ok body
  /-- There are no more copies of other types than roots than the budget allows. -/
  copyBudget : ∀ types : List String, types.Nodup →
    (∀ type ∈ types, table.CopyNeeded (table.rootNames roots) type ∧
      type ∉ table.rootNames roots) → types.length ≤ config.budget table.size
  /-- There are no more types other than builtins and roots than the budget allows. -/
  zeroBudget : ((Run.seeds table).filter (· ∉ table.rootNames roots)).length ≤
    config.budget table.size

theorem Succeeds.not_fault (h : table.Succeeds language config roots) {fault : GenerationError} :
    ¬ table.Fault language config roots fault := by
  rintro (⟨hc, hfault⟩ | ⟨hr, hfault⟩ | ⟨hn, hfault⟩ | ⟨hp, hfault⟩)
  · rw [h.check hc] at hfault
    cases hfault
  · obtain ⟨found, hok⟩ := h.requests _ hr
    rw [hok] at hfault
    cases hfault
  · obtain ⟨body, hok⟩ := h.copies _ hn
    rw [hok] at hfault
    cases hfault
  · obtain ⟨body, hok⟩ := h.zeros _ hp
    rw [hok] at hfault
    cases hfault

/-- Only the set of the canonical names counts, as long as all requests lead to types. -/
theorem Succeeds.congr (hs : ∀ n, n ∈ table.rootNames roots ↔ n ∈ table.rootNames others)
    (hr : ∀ root ∈ others, ∃ found, table.resolve root "root list" = .ok found)
    (h : table.Succeeds language config roots) : table.Succeeds language config others where
  check := h.check
  requests := hr
  copies type hn := h.copies type ((CopyNeeded.congr hs).mpr hn)
  zeros := h.zeros
  copyBudget types hn ht := h.copyBudget types hn fun type hm =>
    ⟨(CopyNeeded.congr hs).mpr (ht type hm).1, fun hc => (ht type hm).2 ((hs type).mp hc)⟩
  zeroBudget := by
    simpa only [hs] using h.zeroBudget

/-! ## From the conditions to a run -/

theorem Succeeds.copies_drained (h : table.Succeeds language config roots) {start : Run}
    (hq : (ascending roots).foldlM (Run.addRoot table) {} = .ok start) (turns : Nat) :
    ∃ copied, Run.drain table .privateCopy (config.budget table.size) turns 0 start =
      .ok copied := by
  cases hd : Run.drain table .privateCopy (config.budget table.size) turns 0 start with
  | ok copied => exact ⟨copied, rfl⟩
  | error fault =>
    rcases Run.stop_of_copies hq hd with ⟨type, hn, hcopy⟩ | ⟨_, types, hnodup, hall, hlt⟩
    · exact absurd (Fault.copy hn hcopy) h.not_fault
    · exact absurd (h.copyBudget types hnodup hall) (Nat.not_le_of_lt hlt)

theorem Succeeds.zeros_drained (h : table.Succeeds language config roots) {start copied : Run}
    (hq : (ascending roots).foldlM (Run.addRoot table) {} = .ok start)
    (hs : Run.SamePredicates start copied) (turns : Nat) :
    ∃ final, Run.drain table .zeroPredicate (config.budget table.size) turns 0
      (copied.queueAll table) = .ok final := by
  cases hd : Run.drain table .zeroPredicate (config.budget table.size) turns 0
      (copied.queueAll table) with
  | ok final => exact ⟨final, rfl⟩
  | error fault =>
    rcases Run.stop_of_zeros hq hs hd with ⟨type, hp, hzero⟩ | ⟨_, hlt⟩
    · exact absurd (Fault.zero hp hzero) h.not_fault
    · exact absurd h.zeroBudget (Nat.not_le_of_lt hlt)

theorem Succeeds.exists_synthesize (h : table.Succeeds language config roots) :
    ∃ synthesis, table.synthesize language config roots = .ok synthesis := by
  have hmethods : ∃ synthesis, table.makeMethods (config.budget table.size) (table.size + 1)
      roots = .ok synthesis := by
    unfold makeMethods
    cases hq : (ascending roots).foldlM (Run.addRoot table) {} with
    | error fault => exact absurd (Run.fault_of_roots hq) h.not_fault
    | ok start =>
      obtain ⟨copied, hc⟩ := h.copies_drained hq (table.size + 1)
      obtain ⟨_, hturns, -⟩ := Run.turns_of_drain hc
      obtain ⟨final, hf⟩ := h.zeros_drained hq hturns.samePredicates (table.size + 1)
      exact ⟨_, by rw [ok_bind, hc, ok_bind, hf]; rfl⟩
  obtain ⟨synthesis, hs⟩ := hmethods
  refine ⟨synthesis, ?_⟩
  unfold synthesize synthesizeWithin
  split
  · rename_i hv
    rw [h.check hv]
    exact hs
  · exact hs

/-! ## From a run to the conditions -/

theorem copyBudget_of_synthesize {synthesis : Synthesis}
    (h : table.synthesize language config roots = .ok synthesis) {types : List String}
    (hn : types.Nodup)
    (ht : ∀ type ∈ types, table.CopyNeeded (table.rootNames roots) type ∧
      type ∉ table.rootNames roots) :
    types.length ≤ config.budget table.size := by
  obtain ⟨start, copied, final, hq, hc, _, _⟩ := Run.phases_of_synthesize h
  obtain ⟨_, _, _, hw⟩ := Run.drain_induct (fun _ _ hi => hi.made.nodup_taken)
    (fun _ _ _ _ hi ht => Run.CopiesTaken.turn hi ht) hc (.initial hq)
  obtain ⟨taken, hcopied, hle⟩ := Run.length_le_of_drain
    (fun _ _ _ _ hi ht => Run.CopiesTaken.turn hi ht)
    (fun _ _ _ _ hi hp => hi.made.proper hp) [] hc (.initial hq) (Nat.zero_le _)
  -- a copy that is needed and is not that of a root was taken from the queue
  refine ((List.subperm_of_subset hn fun type hin => ?_).length_le).trans hle
  obtain ⟨hneeded, hnot⟩ := ht type hin
  rw [← hcopied.roots] at hneeded hnot
  have hin := (hcopied.made.mem_iff_needed hw type).mpr hneeded
  rw [hcopied.made.order] at hin
  exact (List.mem_append.mp hin).resolve_left hnot

theorem zeroBudget_of_synthesize {synthesis : Synthesis}
    (h : table.synthesize language config roots = .ok synthesis) :
    ((Run.seeds table).filter (· ∉ table.rootNames roots)).length ≤ config.budget table.size := by
  obtain ⟨start, copied, final, hq, hc, hf, _⟩ := Run.phases_of_synthesize h
  obtain ⟨_, hturns, -⟩ := Run.turns_of_drain hc
  obtain ⟨_, _, _, hw⟩ := Run.drain_induct (fun _ _ hi => hi.made.nodup_taken)
    (fun _ _ _ _ hi ht => Run.ZerosTaken.turn hi ht) hf (.initial hq hturns.samePredicates)
  obtain ⟨taken, hfinal, hle⟩ := Run.length_le_of_drain
    (fun _ _ _ _ hi ht => Run.ZerosTaken.turn hi ht)
    (fun _ _ _ _ hi hp => hi.proper hp) [] hf (.initial hq hturns.samePredicates) (Nat.zero_le _)
  have hw : final.zeros.pending = [] := hw
  have hdistinct : (Run.seeds table).Nodup := table.distinct_names.filter _
  refine ((List.subperm_of_subset (hdistinct.filter _) fun n hn => ?_).length_le).trans hle
  have htaken := (hfinal.mem_iff n).mpr hn
  rw [hw] at htaken
  exact htaken.resolve_right List.not_mem_nil

/-- A request is taken over only if its name leads to a type. -/
theorem resolve_of_synthesize {synthesis : Synthesis}
    (h : table.synthesize language config roots = .ok synthesis) {root : String}
    (hr : root ∈ roots) :
    ∃ found, table.resolve root "root list" = .ok found := by
  obtain ⟨start, _, _, hq, _⟩ := Run.phases_of_synthesize h
  have hall : ∀ root ∈ [] ++ ascending roots, ∃ found,
      table.resolve root "root list" = .ok found :=
    Run.roots_induct (P := fun before _ => ∀ root ∈ before, ∃ found,
        table.resolve root "root list" = .ok found)
      (fun before run root next hi hn => by
        obtain ⟨name, shape, hfound, _⟩ := Run.addRoot_cases hn
        exact List.forall_mem_append.mpr ⟨hi, List.forall_mem_singleton.mpr ⟨_, hfound⟩⟩)
      hq (by simp)
  exact hall root (mem_ascending.mpr hr)

theorem succeeds_of_synthesize {synthesis : Synthesis}
    (h : table.synthesize language config roots = .ok synthesis) :
    table.Succeeds language config roots where
  check hv := by
    unfold synthesize synthesizeWithin at h
    rw [if_pos hv] at h
    obtain ⟨_, hok, _⟩ := bind_eq_ok_iff.mp h
    exact lifted_eq_ok_iff.mp hok
  requests _ hr := resolve_of_synthesize h hr
  copies type hn := by
    obtain ⟨copy, hc, rfl⟩ := List.mem_map.mp (((copyTypes_of_synthesize h).2 type).mpr hn)
    exact ⟨copy.2, ((mem_copies_of_synthesize h).mp hc).2⟩
  zeros type hp := by
    have hclosed := zerosClosed_of_synthesize h
    obtain ⟨body, hb⟩ := Option.isSome_iff_exists.mp ((hclosed.covers type).mpr hp)
    exact ⟨_, hclosed.bodies type body hb⟩
  copyBudget types hn ht := copyBudget_of_synthesize h hn ht
  zeroBudget := zeroBudget_of_synthesize h

/-- A run succeeds under these conditions, and only then. -/
theorem exists_synthesize_iff :
    (∃ synthesis, table.synthesize language config roots = .ok synthesis) ↔
      table.Succeeds language config roots :=
  ⟨fun ⟨_, h⟩ => succeeds_of_synthesize h, fun h => h.exists_synthesize⟩

end Table

end CopySynth
