import CopySynth.Proofs.CopyClosure
import CopySynth.Proofs.ZeroClosure

/-!
# Where a queue stops

A queue never hands out a builtin, so each of its turns makes one body, and the names it hands out
are distinct. So it stops at a body that cannot be made, or because more bodies are due than the
budget of the family allows; another budget changes nothing but whether the queue is cut off. The
bodies due are known without a queue: for the copies the types that are no roots and whose copies
are needed, for the predicates the types of the table that are no builtins and no roots.
-/

namespace CopySynth

namespace Table

variable {table : Table}

/-- A type whose copy is needed is a type of its own, and no builtin. -/
theorem CopyNeeded.get? {roots : List String} {type : String}
    (h : table.CopyNeeded (table.rootNames roots) type) :
    ∃ shape, table.get? type = some (.type shape) ∧ shape.isBuiltin = false := by
  induction h with
  | @start type hs =>
    obtain ⟨root, _, hroot⟩ := List.mem_filterMap.mp (List.mem_eraseDups.mp hs)
    unfold rootName? at hroot
    split at hroot
    · rename_i name shape hr
      split at hroot
      · cases hroot
      · rename_i hb
        cases hroot
        exact ⟨shape, get?_of_resolve hr, by simpa using hb⟩
    · cases hroot
  | call _ hb hc ih =>
    obtain ⟨shape, hg, _⟩ := ih
    exact get?_of_mem_helpers hg hb hc

/-- Only a predicate that the type would have can be at fault. -/
theorem hasPredicate_of_zeroFault {name : String} {type : Definition} {fault : GenerationError}
    (hg : table.get? name = some type) (hb : type.isBuiltin = false)
    (h : table.zeroBody name = .error fault) : table.hasPredicate name = true := by
  rw [zeroBody, lookup, hg, lifted, ok_bind] at h
  cases type with
  | aliasOf => cases h
  | type shape =>
    rw [hasPredicate_eq hg]
    cases shape with
    | builtin => cases hb
    | dynamic => cases h
    | fixed | record => rfl

end Table

namespace Run

variable {table : Table} {family : Family} {budget : Nat} {P : List String → Run → Prop}

section Queue

variable
  (turn : ∀ taken run name next, P taken run → Turn table family run name next →
    P (taken ++ [name]) next)
  (proper : ∀ taken run name rest, P taken run → (run.work family).pop? = some (name, rest) →
    ∃ type, table.get? name = some type ∧ type.isBuiltin = false)
include turn proper

/-- A queue of types that are no builtins is at its end, or it makes the body of the next name unless
its budget is used up. -/
theorem drain_cases {taken : List String} {run : Run} (hi : P taken run) :
    (∀ budget turns made, drain table family budget turns made run = .ok run) ∨
    ∃ name rest, (run.work family).pop? = some (name, rest) ∧
      (∀ next, (run.withWork family rest).make table family name = .ok next →
        P (taken ++ [name]) (next.markDone family name)) ∧
      ∀ budget turns made, drain table family budget (turns + 1) made run =
        if budget ≤ made then
          .error ((run.withWork family rest).exhausted table family budget name)
        else (run.withWork family rest).make table family name >>= fun next =>
          drain table family budget turns (made + 1) (next.markDone family name) := by
  cases hp : (run.work family).pop? with
  | none =>
    refine .inl fun budget turns made => ?_
    cases turns with
    | zero => rfl
    | succ turns => simp only [drain, hp]
  | some head =>
    obtain ⟨name, rest⟩ := head
    obtain ⟨type, hg, hb⟩ := proper taken run name rest hi hp
    refine .inr ⟨name, rest, rfl, fun next hm => ?_, fun budget turns made => ?_⟩
    · exact turn taken run name _ hi (.made hp hg hb hm)
    · simp only [drain, hp, Table.lookup, hg, lifted, ok_bind, hb, Bool.false_eq_true, if_false]
      rfl

/-- Such a queue, once worked off, is worked off alike with any budget that is no less than the
number of names taken, and is cut off with any other. -/
theorem drain_limited {turns : Nat} (limit : Nat) (taken : List String) {run final : Run}
    (h : drain table family budget turns taken.length run = .ok final) (hi : P taken run)
    (hl : taken.length ≤ limit) :
    ∃ all, P all final ∧ taken.length ≤ all.length ∧
      (all.length ≤ limit → drain table family limit turns taken.length run = .ok final) ∧
      (limit < all.length → ∃ chain pending, drain table family limit turns taken.length run =
        .error (.nonTerminating family limit chain pending)) := by
  induction turns generalizing taken run limit with
  | zero =>
    cases h
    exact ⟨taken, hi, Nat.le_refl _, fun _ => rfl, fun hlt => absurd hl (Nat.not_le_of_lt hlt)⟩
  | succ turns ih =>
    rcases drain_cases turn proper hi with hend | ⟨name, rest, -, hnext, hstep⟩
    · rw [hend] at h
      cases h
      exact ⟨taken, hi, Nat.le_refl _, fun _ => hend _ _ _,
        fun hlt => absurd hl (Nat.not_le_of_lt hlt)⟩
    · rw [hstep] at h
      split at h
      · cases h
      obtain ⟨next, hm, h⟩ := bind_eq_ok_iff.mp h
      have hlength : (taken ++ [name]).length = taken.length + 1 := by simp
      rw [← hlength] at h
      rw [hstep]
      split
      · -- the limit is used up when the turn of a name comes, which makes one name more
        obtain ⟨all, hall, hle, -⟩ := ih _ (taken ++ [name]) h (hnext next hm) (Nat.le_refl _)
        exact ⟨all, hall, by omega, fun hfits => by omega, fun _ => ⟨_, _, rfl⟩⟩
      · rw [hm, ok_bind, ← hlength]
        obtain ⟨all, hall, hle, hcases⟩ :=
          ih limit (taken ++ [name]) h (hnext next hm) (by omega)
        exact ⟨all, hall, by omega, hcases⟩

/-- Such a queue takes no more turns than its budget allows. -/
theorem length_le_of_drain {turns : Nat} (taken : List String) {run final : Run}
    (h : drain table family budget turns taken.length run = .ok final) (hi : P taken run)
    (hb : taken.length ≤ budget) : ∃ all, P all final ∧ all.length ≤ budget := by
  obtain ⟨all, hall, -, -, hcut⟩ := drain_limited turn proper budget taken h hi hb
  refine ⟨all, hall, Nat.le_of_not_lt fun hlt => ?_⟩
  obtain ⟨chain, pending, hfault⟩ := hcut hlt
  rw [h] at hfault
  cases hfault

/-- Such a queue stops at a body, or when as many names were taken as its budget allows. Then its
fault tells of the name whose turn it is. -/
theorem stop_of_drain {turns : Nat} (taken : List String) {run : Run} {fault : GenerationError}
    (h : drain table family budget turns taken.length run = .error fault) (hi : P taken run) :
    ∃ taken run name rest, P taken run ∧ (run.work family).pop? = some (name, rest) ∧
      ((run.withWork family rest).make table family name = .error fault ∨
        budget ≤ taken.length ∧
          fault = (run.withWork family rest).exhausted table family budget name) := by
  induction turns generalizing taken run with
  | zero => cases h
  | succ turns ih =>
    rcases drain_cases turn proper hi with hend | ⟨name, rest, hp, hnext, hstep⟩
    · rw [hend] at h
      cases h
    · rw [hstep] at h
      split at h
      · rename_i hlimit
        cases h
        exact ⟨taken, run, name, rest, hi, hp, .inr ⟨hlimit, rfl⟩⟩
      · rcases bind_eq_error_iff.mp h with hm | ⟨next, hm, h⟩
        · exact ⟨taken, run, name, rest, hi, hp, .inl hm⟩
        · have hlength : (taken ++ [name]).length = taken.length + 1 := by simp
          rw [← hlength] at h
          exact ih (taken ++ [name]) h (hnext next hm)

end Queue

/-! ## The two queues -/

theorem CopiesMade.proper {taken : List String} {run : Run} {name : String} {rest : Worklist}
    (h : CopiesMade table taken run) (hp : run.copies.pop? = some (name, rest)) :
    ∃ type, table.get? name = some type ∧ type.isBuiltin = false := by
  obtain ⟨shape, hg, hb⟩ := h.get?_of_called (h.called_of_pop hp)
  exact ⟨_, hg, hb⟩

/-- A requested name that is no builtin is a root. -/
theorem mem_publics_iff {run : Run} {name : String} (hb : table.namesBuiltin name = false) :
    name ∈ run.publics table ↔ name ∈ run.requested := by
  simp [publics, hb]

variable {roots : List String} {start : Run}

/-- The copies made when these names were taken from the queue that the requests have left. -/
structure CopiesTaken (table : Table) (roots taken : List String) (run : Run) : Prop where
  made : CopiesMade table taken run
  roots : run.publics table = table.rootNames roots

namespace CopiesTaken

variable {taken : List String} {run next : Run} {name : String}

theorem initial (hq : (ascending roots).foldlM (addRoot table) {} = .ok start) :
    CopiesTaken table roots [] start :=
  ⟨(copiesMade_of_roots hq).2, (copiesMade_of_roots hq).1.roots⟩

theorem turn (h : CopiesTaken table roots taken run) (ht : Turn table .privateCopy run name next) :
    CopiesTaken table roots (taken ++ [name]) next :=
  ⟨h.made.turn ht, (publics_congr ht.samePredicates.requested).trans h.roots⟩

/-- What is taken are types that are no roots and whose copies are needed. -/
theorem pop (h : CopiesTaken table roots taken run) {rest : Worklist}
    (hp : run.copies.pop? = some (name, rest)) :
    (taken ++ [name]).Nodup ∧ ∀ type ∈ taken ++ [name],
      table.CopyNeeded (table.rootNames roots) type ∧ type ∉ table.rootNames roots := by
  have hline := h.made.line.pop hp
  refine ⟨(List.nodup_append.mp hline.nodup).1, fun type ht => ?_⟩
  obtain ⟨hcalled, hnot⟩ := hline.mem_iff.mp (.inl ht)
  rw [← h.roots]
  exact ⟨h.made.needed_of_called hcalled, fun hc => hnot (List.mem_filter.mp hc).1⟩

end CopiesTaken

/-- The predicates made when these names were taken from the queue, which the requests have asked
for `asked` and which was then asked for the whole table. -/
structure ZerosTaken (table : Table) (roots asked taken : List String) (run : Run) : Prop where
  made : ZerosMade table (asked ++ seeds table) taken run
  roots : run.publics table = table.rootNames roots
  asked : ∀ n ∈ asked, table.hasPredicate n = true

namespace ZerosTaken

variable {asked taken : List String} {run next copied : Run} {name : String}

theorem initial (hq : (ascending roots).foldlM (addRoot table) {} = .ok start)
    (hs : SamePredicates start copied) :
    ZerosTaken table roots start.output.delegated [] (copied.queueAll table) where
  made := ((zerosMade_of_roots hq).2.of_samePredicates hs).queueAll
  roots := (publics_congr hs.requested).trans (zerosMade_of_roots hq).1.roots
  asked _ hn := (zerosMade_of_roots hq).2.hasPredicate_of_delegated hn

theorem turn (h : ZerosTaken table roots asked taken run)
    (ht : Turn table .zeroPredicate run name next) :
    ZerosTaken table roots asked (taken ++ [name]) next :=
  ⟨h.made.turn (fun _ hn => List.mem_append_right _ hn) ht,
    (publics_congr ht.sameCopies.requested).trans h.roots, h.asked⟩

/-- The queue was asked for types of the table that are no builtins, and for all of them. -/
theorem mem_asked_iff (h : ZerosTaken table roots asked taken run) (n : String) :
    n ∈ asked ++ seeds table ↔ n ∈ seeds table := by
  refine ⟨fun hn => (List.mem_append.mp hn).elim (fun hn => ?_) id, List.mem_append_right _⟩
  exact List.mem_filter.mpr ⟨Table.mem_names_of_hasPredicate (h.asked n hn),
    by simp [Table.not_namesBuiltin (h.asked n hn)]⟩

theorem proper (h : ZerosTaken table roots asked taken run) {rest : Worklist}
    (hp : run.zeros.pop? = some (name, rest)) :
    ∃ type, table.get? name = some type ∧ type.isBuiltin = false := by
  obtain ⟨hn, hb⟩ := List.mem_filter.mp ((h.mem_asked_iff name).mp (h.made.asked_of_pop hp))
  obtain ⟨type, hg⟩ := Option.isSome_iff_exists.mp ((Table.get?_isSome_iff table name).mpr hn)
  exact ⟨type, hg, by simpa [Table.namesBuiltin, hg] using hb⟩

/-- What is taken, or is still waiting, are types that are no builtins and no roots. -/
theorem mem_iff (h : ZerosTaken table roots asked taken run) (n : String) :
    n ∈ taken ∨ n ∈ run.zeros.pending ↔
      n ∈ (seeds table).filter (· ∉ table.rootNames roots) := by
  rw [h.made.line.mem_iff, h.mem_asked_iff, List.mem_filter]
  refine and_congr_right fun hn => ?_
  have hb : table.namesBuiltin n = false := by simpa using (List.mem_filter.mp hn).2
  simp [← h.roots, mem_publics_iff hb]

end ZerosTaken

/-! ## Why a queue stops -/

variable {turns : Nat} {fault : GenerationError}

/-- The queue of the copies stops at a copy that is needed, or because more copies are due than its
budget allows. -/
theorem stop_of_copies (hq : (ascending roots).foldlM (addRoot table) {} = .ok start)
    (h : drain table .privateCopy budget turns 0 start = .error fault) :
    (∃ type, table.CopyNeeded (table.rootNames roots) type ∧
      table.copyBody type = .error fault) ∨
    (∃ chain pending, fault = .nonTerminating .privateCopy budget chain pending) ∧
    ∃ types : List String, types.Nodup ∧ (∀ type ∈ types,
      table.CopyNeeded (table.rootNames roots) type ∧ type ∉ table.rootNames roots) ∧
      budget < types.length := by
  obtain ⟨taken, run, name, rest, hrun, hp, hcase⟩ := stop_of_drain
    (fun _ _ _ _ hi ht => CopiesTaken.turn hi ht)
    (fun _ _ _ _ hi hp => hi.made.proper hp) [] h (.initial hq)
  obtain ⟨hnodup, hall⟩ := hrun.pop hp
  rcases hcase with hmake | ⟨hlimit, rfl⟩
  · exact .inl ⟨name, (hall name (by simp)).1, copyFault_of_makeCopy hmake⟩
  · refine .inr ⟨⟨_, _, rfl⟩, _, hnodup, hall, ?_⟩
    rw [List.length_append, List.length_singleton]
    exact Nat.lt_succ_of_le hlimit

/-- The queue of the predicates stops at a predicate of the table, or because there are more types
other than builtins and roots than its budget allows. -/
theorem stop_of_zeros {copied : Run}
    (hq : (ascending roots).foldlM (addRoot table) {} = .ok start)
    (hs : SamePredicates start copied)
    (h : drain table .zeroPredicate budget turns 0 (copied.queueAll table) = .error fault) :
    (∃ type, table.hasPredicate type = true ∧ table.zeroBody type = .error fault) ∨
    (∃ chain pending, fault = .nonTerminating .zeroPredicate budget chain pending) ∧
    budget < ((seeds table).filter (· ∉ table.rootNames roots)).length := by
  obtain ⟨taken, run, name, rest, hrun, hp, hcase⟩ := stop_of_drain
    (fun _ _ _ _ hi ht => ZerosTaken.turn hi ht)
    (fun _ _ _ _ hi hp => hi.proper hp) [] h (.initial hq hs)
  rcases hcase with hmake | ⟨hlimit, rfl⟩
  · obtain ⟨type, hg, hb⟩ := hrun.proper hp
    have hzero := zeroFault_of_makeZero hmake
    exact .inl ⟨name, Table.hasPredicate_of_zeroFault hg hb hzero, hzero⟩
  · -- the name whose turn it is makes one name more than were taken
    have hnodup := (List.nodup_append.mp (hrun.made.line.pop hp).nodup).1
    have hsub : taken ++ [name] ⊆ (seeds table).filter (· ∉ table.rootNames roots) := by
      intro n hn
      refine (hrun.mem_iff n).mp ((List.mem_append.mp hn).imp_right fun hn => ?_)
      rw [List.mem_singleton.mp hn]
      exact Worklist.mem_pending_of_pop hp
    have hle := (List.subperm_of_subset hnodup hsub).length_le
    rw [List.length_append, List.length_singleton] at hle
    exact .inr ⟨⟨_, _, rfl⟩, by omega⟩

end Run

end CopySynth
