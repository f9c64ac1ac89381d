import CopySynth.Proofs.Faults
import CopySynth.Proofs.Referrers

/-!
# The chain of a family without budget

A family that has used up its budget reports the name whose turn it is with a chain of names that
led to it. A name is asked for by a type that refers to it, so the chain is a way along references
of the table. It repeats no name, except for a last one to which the reported name refers back. The
chain of a private copy begins with a requested type: private copies are asked for by copies that
were made before, and the copies made first are those of the requests.
-/

namespace CopySynth

open Worklist (Explains Ended Traced)

namespace Table

/-- One type refers to another: that is the type behind the name of a field or of the element. -/
def Refers (table : Table) (owner part : String) : Prop :=
  ∃ shape, table.get? owner = some (.type shape) ∧
    ∃ slot ∈ shape.slots, ∃ target found, slot.2 = .named target ∧ table.LeadsTo target part found

/-- Whoever was noted to have asked for a name refers to it. -/
def Justifies (table : Table) (work : Worklist) : Prop :=
  ∀ name asker, work.requester? name = some asker → table.Refers asker name

/-- Why the turn of `name` has come: distinct names that end in it, each of which refers to the next.
It may refer back to one of them. -/
structure Explanation (table : Table) (name : String) (names : List String)
    (back : Option String) : Prop where
  once : names.Nodup
  last : names.getLast? = some name
  again : ∀ n ∈ back, n ∈ names
  linked : (names ++ back.toList).IsChain table.Refers

variable {table : Table} {work : Worklist} {name asker : String}

theorem Refers.get? (h : table.Refers asker name) :
    ∃ shape, table.get? name = some (.type shape) := by
  obtain ⟨_, _, _, _, _, found, _, hl⟩ := h
  exact ⟨found, hl.get?⟩

theorem refers_of_mem_helpers {shape : Shape} {body : CopyBody}
    (hg : table.get? asker = some (.type shape)) (hb : table.copyBody asker = .ok body) :
    ∀ n ∈ body.helpers, table.Refers asker n := by
  intro n hn
  obtain ⟨slot, hs, target, found, hslot, hl, _⟩ := leadsTo_of_mem_helpers hg hb hn
  exact ⟨shape, hg, slot, hs, target, found, hslot, hl⟩

theorem refers_of_mem_delegates {body : Option ZeroBody} (hb : table.zeroBody asker = .ok body) :
    ∀ n ∈ (body.map ZeroBody.delegates).getD [], table.Refers asker n := by
  intro n hn
  cases body with
  | none => exact absurd hn List.not_mem_nil
  | some body =>
    obtain ⟨shape, hg, _, slot, hs, target, found, hslot, hl, _⟩ := leadsTo_of_mem_delegates hb hn
    exact ⟨shape, hg, slot, hs, target, found, hslot, hl⟩

/-- A name that a type refers to is no alias. -/
theorem get?_of_mem_directReferences (h : name ∈ table.directReferences asker) :
    ∃ shape, table.get? name = some (.type shape) := by
  unfold directReferences at h
  split at h
  · obtain ⟨target, _, hname⟩ := List.mem_filterMap.mp h
    obtain ⟨shape, hr⟩ := resolve_of_canonical? "" hname
    exact ⟨shape, get?_of_resolve hr⟩
  · exact absurd h List.not_mem_nil

theorem refers_of_mem_directReferences {shape : Shape} (hg : table.get? asker = some (.type shape))
    (h : name ∈ table.directReferences asker) : table.Refers asker name := by
  unfold directReferences at h
  rw [resolve_of_get? _ hg] at h
  obtain ⟨target, htarget, hname⟩ := List.mem_filterMap.mp h
  obtain ⟨slot, hs, hslot⟩ := List.mem_filterMap.mp htarget
  obtain ⟨found, hr⟩ := resolve_of_canonical? "" hname
  refine ⟨shape, hg, slot, hs, target, found, ?_, leadsTo_of_resolve hr⟩
  cases href : slot.2 with
  | named other =>
    rw [href] at hslot
    cases hslot
    rfl
  | inline =>
    rw [href] at hslot
    cases hslot

namespace Justifies

theorem empty : table.Justifies .empty := by
  intro name asker h
  cases h

theorem requireAll (h : table.Justifies work) {names : List String}
    (hr : ∀ n ∈ names, table.Refers asker n) : table.Justifies (work.requireAll names asker) := by
  intro n found hf
  rcases Worklist.requester?_requireAll_cases hf with hbefore | ⟨rfl, _, hn, _⟩
  · exact h n found hbefore
  · exact hr n hn

theorem markDone (h : table.Justifies work) (name : String) :
    table.Justifies (work.markDone name) := by
  intro n found hf
  rw [Worklist.requester?_markDone] at hf
  exact h n found hf

theorem pop (h : table.Justifies work) : table.Justifies work.pop.2 := h

theorem pushAll (h : table.Justifies work) (names : List String) :
    table.Justifies (names.foldl Worklist.push work) := by
  induction names generalizing work with
  | nil => exact h
  | cons first rest ih =>
    rw [List.foldl_cons]
    refine ih fun n found hf => ?_
    rw [Worklist.requester?_push] at hf
    exact h n found hf

/-- An alias is asked for by nobody, so nothing refers back from it. -/
theorem refers_back (h : table.Justifies work) {names : List String} {back : String}
    (he : work.Explains name names) (hin : back ∈ names)
    (href : back ∈ table.directReferences name) : table.Refers name back := by
  cases hr : table.resolve name "dependency chain" with
  | error fault =>
    rw [directReferences, hr] at href
    exact absurd href List.not_mem_nil
  | ok found =>
    cases leadsTo_of_resolve hr with
    | type hg => exact refers_of_mem_directReferences hg href
    | aliased hg hl =>
      have hnobody : work.requester? name = none := by
        cases hasked : work.requester? name with
        | none => rfl
        | some asker =>
          obtain ⟨shape, hg'⟩ := (h name asker hasked).get?
          rw [hg] at hg'
          cases hg'
      rw [he.eq_singleton hnobody] at hin
      cases List.mem_singleton.mp hin
      obtain ⟨shape, hg'⟩ := get?_of_mem_directReferences href
      rw [hg] at hg'
      cases hg'

/-- The chain that a worklist gives for a name. -/
theorem explanation (h : table.Justifies work) {names : List String}
    (he : work.Explains name names) :
    table.Explanation name names
      ((table.directReferences name).find? fun reference => reference ∈ names) := by
  have hnames : names.IsChain table.Refers := he.asked.imp fun _ _ hasked => h _ _ hasked
  cases hback : (table.directReferences name).find? fun reference => reference ∈ names with
  | none => exact ⟨he.once, he.last, by simp, by simpa using hnames⟩
  | some back =>
    have hin : back ∈ names := by simpa using List.find?_some hback
    have href := List.mem_of_find?_eq_some hback
    refine ⟨he.once, he.last, by simpa using hin, ?_⟩
    refine List.isChain_append.mpr ⟨hnames, List.isChain_singleton back, ?_⟩
    intro last hlast next hnext
    cases he.last.symm.trans hlast
    cases hnext
    exact h.refers_back he hin href

end Justifies

end Table

namespace Run

variable {table : Table} {language : Code.Language} {roots : List String}

/-- What the requests `before` leave in the worklists: whoever asked for a name refers to it, and
the names processed are those of the requests. -/
structure Asking (table : Table) (before : List String) (run : Run) : Prop where
  copies : table.Justifies run.copies
  zeros : table.Justifies run.zeros
  traced : run.copies.Traced run.requested run.requested
  canonical : ∀ n ∈ run.requested, ∃ root ∈ before, table.canonical? root = some n

theorem Asking.empty : Asking table [] {} := ⟨.empty, .empty, .empty, by simp⟩

theorem Asking.request {before : List String} {run next : Run} {root : String}
    (h : Asking table before run) (hr : addRoot table run root = .ok next) :
    Asking table (before ++ [root]) next := by
  have hearlier : ∀ n ∈ run.requested, ∃ root' ∈ before ++ [root],
      table.canonical? root' = some n := by
    intro n hn
    obtain ⟨root', hroot, hcanonical⟩ := h.canonical n hn
    exact ⟨root', List.mem_append_left _ hroot, hcanonical⟩
  obtain ⟨name, shape, hfound, ⟨_, rfl⟩ | ⟨body, zero, hm⟩⟩ := addRoot_effect hr
  · exact ⟨h.copies, h.zeros, h.traced, hearlier⟩
  have hzero : table.zeroBody name = .ok zero ∨ zero = none := by
    have hz := hm.zeroBody
    split at hz
    · exact .inr hz
    · exact .inl hz
  refine ⟨?_, ?_, ?_, ?_⟩
  · rw [hm.copies]
    exact (h.copies.requireAll (Table.refers_of_mem_helpers hm.known hm.copyBody)).markDone name
  · rw [hm.zeros]
    refine (h.zeros.requireAll ?_).markDone name
    rcases hzero with hz | rfl
    · exact Table.refers_of_mem_delegates hz
    · simp
  · rw [hm.copies, hm.requested]
    have hstarts : run.requested ⊆ run.requested ++ [name] := List.subset_append_left _ _
    exact h.traced.process hm.fresh hstarts (.inl (by simp)) body.helpers
  · rw [hm.requested]
    refine List.forall_mem_append.mpr ⟨hearlier, List.forall_mem_singleton.mpr ?_⟩
    exact ⟨root, by simp, Table.canonical?_of_resolve hfound⟩

theorem asking_of_roots {start : Run}
    (hq : (ascending roots).foldlM (addRoot table) {} = .ok start) :
    Asking table (ascending roots) start :=
  roots_induct (P := Asking table) (fun _ _ _ _ hi hr => hi.request hr) hq .empty

/-! ## Turns -/

/-- The queue of the copies when these names were taken from it, after names were requested. -/
structure CopiesTraced (table : Table) (requested taken : List String) (run : Run) : Prop where
  made : CopiesMade table taken run
  justified : table.Justifies run.copies
  traced : run.copies.Traced requested (requested ++ taken)

theorem CopiesTraced.turn {requested taken : List String} {run next : Run} {name : String}
    (h : CopiesTraced table requested taken run) (ht : Turn table .privateCopy run name next) :
    CopiesTraced table requested (taken ++ [name]) next := by
  have hmade := h.made.turn ht
  cases ht with
  | skipped hp hg hb =>
    -- a name that was called is no builtin
    obtain ⟨type, hg', hb'⟩ := h.made.proper hp
    rw [hg] at hg'
    cases hg'
    exact absurd (hb'.symm.trans hb) (by decide)
  | @made rest type made hp hg hb hm =>
    obtain ⟨shape, hg', _⟩ := h.made.get?_of_called (h.made.called_of_pop hp)
    obtain ⟨body, hbody, rfl⟩ := makeCopy_cases hg' hm
    refine ⟨hmade, ?_, ?_⟩
    · have hrest : table.Justifies rest := (Worklist.pending_of_pop hp).1 ▸ h.justified
      exact (hrest.requireAll (Table.refers_of_mem_helpers hg' hbody)).markDone name
    · rw [← List.append_assoc]
      exact h.traced.turn hp body.helpers

/-- The queue of the predicates when these names were taken from it. -/
structure ZerosJustified (table : Table) (roots asked taken : List String) (run : Run) : Prop where
  zeros : ZerosTaken table roots asked taken run
  justified : table.Justifies run.zeros

theorem ZerosJustified.turn {asked taken : List String} {run next : Run} {name : String}
    (h : ZerosJustified table roots asked taken run)
    (ht : Turn table .zeroPredicate run name next) :
    ZerosJustified table roots asked (taken ++ [name]) next := by
  refine ⟨h.zeros.turn ht, ?_⟩
  have hrest {rest : Worklist} (hp : run.zeros.pop? = some (name, rest)) : table.Justifies rest :=
    (Worklist.pending_of_pop hp).1 ▸ h.justified
  cases ht with
  | skipped hp => exact (hrest hp).markDone name
  | @made rest type made hp hg hb hm =>
    obtain ⟨body, hbody, rfl⟩ := makeZero_cases hm
    exact ((hrest hp).requireAll (Table.refers_of_mem_delegates hbody)).markDone name

/-! ## The fault -/

variable {start copied : Run} {budget turns : Nat} {fault : GenerationError}

/-- The chain for a name, as the walk back from it has found it. -/
theorem exists_explanation {work : Worklist} (h : table.Justifies work) (name : String) :
    ∃ names back, table.dependencyChain work name = names ++ back.toList ∧
      table.Explanation name names back ∧ work.Explains name names ∧ work.Ended names := by
  have he := (Explains.single work name).referrers work.requesters.length
  exact ⟨_, _, rfl, h.explanation he, he, work.ended_referrers name⟩

theorem explanation_of_copies (hq : (ascending roots).foldlM (addRoot table) {} = .ok start)
    (h : drain table .privateCopy budget turns 0 start = .error fault)
    (hout : fault.outOfBudget = true) :
    ∃ name rest names back,
      fault = .nonTerminating .privateCopy budget (names ++ back.toList) (name :: rest) ∧
      table.Explanation name names back ∧ ∃ root ∈ roots, names.head? = table.canonical? root := by
  have hstart := asking_of_roots hq
  have hbegin : CopiesTraced table start.requested [] start :=
    ⟨(copiesMade_of_roots hq).2, hstart.copies, by rw [List.append_nil]; exact hstart.traced⟩
  obtain ⟨taken, run, name, rest, hrun, hp, hcase⟩ := stop_of_drain
    (fun _ _ _ _ hi ht => CopiesTraced.turn hi ht)
    (fun _ _ _ _ hi hp => hi.made.proper hp) [] h hbegin
  rcases hcase with hmake | ⟨_, rfl⟩
  · rw [Table.terminates_copyBody name fault (copyFault_of_makeCopy hmake)] at hout
    cases hout
  · have hwaits := Worklist.mem_pending_of_pop hp
    obtain ⟨rfl, _⟩ := Worklist.pending_of_pop hp
    have hqueued : name ∈ run.copies.pop.2.queued :=
      List.mem_of_mem_drop (List.mem_filter.mp hwaits).1
    obtain ⟨names, back, hchain, hexplains, he, hend⟩ :=
      exists_explanation hrun.justified.pop name
    obtain ⟨first, hfirst, hhead⟩ := hrun.traced.pop.head_mem_starts hqueued he hend
    obtain ⟨root, hroot, hcanonical⟩ := hstart.canonical first hfirst
    refine ⟨name, run.copies.pop.2.pending, names, back, ?_, hexplains, root,
      mem_ascending.mp hroot, ?_⟩
    · rw [← hchain]
      rfl
    · rw [hhead, hcanonical]

theorem explanation_of_zeros (hq : (ascending roots).foldlM (addRoot table) {} = .ok start)
    (hs : SamePredicates start copied)
    (h : drain table .zeroPredicate budget turns 0 (copied.queueAll table) = .error fault)
    (hout : fault.outOfBudget = true) :
    ∃ name rest names back,
      fault = .nonTerminating .zeroPredicate budget (names ++ back.toList) (name :: rest) ∧
      table.Explanation name names back := by
  have hcopied : table.Justifies copied.zeros := by
    rw [hs.work]
    exact (asking_of_roots hq).zeros
  have hbegin : ZerosJustified table roots start.output.delegated [] (copied.queueAll table) :=
    ⟨.initial hq hs, hcopied.pushAll _⟩
  obtain ⟨taken, run, name, rest, hrun, hp, hcase⟩ := stop_of_drain
    (fun _ _ _ _ hi ht => ZerosJustified.turn hi ht)
    (fun _ _ _ _ hi hp => hi.zeros.proper hp) [] h hbegin
  rcases hcase with hmake | ⟨_, rfl⟩
  · rw [Table.terminates_zeroBody name fault (zeroFault_of_makeZero hmake)] at hout
    cases hout
  · obtain ⟨rfl, _⟩ := Worklist.pending_of_pop hp
    obtain ⟨names, back, hchain, hexplains, _⟩ :=
      exists_explanation hrun.justified.pop name
    refine ⟨name, run.zeros.pop.2.pending, names, back, ?_, hexplains⟩
    rw [← hchain]
    rfl

end Run

namespace Table

/-- The chain of a run in any number of turns. -/
theorem explanation_of_synthesizeWithin {table : Table} {language : Code.Language} {turns : Nat}
    {config : Config} {roots : List String} {family : Family} {budget : Nat}
    {chain pending : List String}
    (h : table.synthesizeWithin language turns config roots =
      .error (.nonTerminating family budget chain pending)) :
    ∃ name rest names back, pending = name :: rest ∧ chain = names ++ back.toList ∧
      table.Explanation name names back ∧
      (family = .privateCopy → ∃ root ∈ roots, names.head? = table.canonical? root) := by
  have hout : (GenerationError.nonTerminating family budget chain pending).outOfBudget = true := rfl
  generalize hfault : GenerationError.nonTerminating family budget chain pending = fault at h hout
  cases Run.fails_of_synthesizeWithin h with
  | check hc hv =>
    have hcheck : table.Fault language config roots _ := .check hc hv
    rw [hcheck.outOfBudget_eq] at hout
    cases hout
  | requests hroots =>
    have hrequest : table.Fault language config roots fault := Run.fault_of_roots hroots
    rw [hrequest.outOfBudget_eq] at hout
    cases hout
  | copies hq hcopies =>
    obtain ⟨name, rest, names, back, rfl, hexplains, hroot⟩ :=
      Run.explanation_of_copies hq hcopies hout
    cases hfault
    exact ⟨name, rest, names, back, rfl, rfl, hexplains, fun _ => hroot⟩
  | zeros hq hc hzeros =>
    obtain ⟨_, hturns, -⟩ := Run.turns_of_drain hc
    obtain ⟨name, rest, names, back, rfl, hexplains⟩ :=
      Run.explanation_of_zeros hq hturns.samePredicates hzeros hout
    cases hfault
    exact ⟨name, rest, names, back, rfl, rfl, hexplains, fun hfamily => by cases hfamily⟩

/-- The chain of a family that has used up its budget explains why the turn of the first pending
name has come. In the family of the private copies it begins with a requested type. The walk that
finds the names of the chain ends by itself, whatever worklist it is on. -/
theorem chain_explains :
    (∀ (table : Table) (language : Code.Language) (config : Config) (roots : List String)
      (family : Family) (budget : Nat) (chain pending : List String),
      table.synthesize language config roots = .error (.nonTerminating family budget chain pending) →
      ∃ name rest names back, pending = name :: rest ∧ chain = names ++ back.toList ∧
        table.Explanation name names back ∧
        (family = .privateCopy → ∃ root ∈ roots, names.head? = table.canonical? root)) ∧
    ∀ (work : Worklist) (name : String),
      work.Ended (work.referrers work.requesters.length [name]) := by
  refine ⟨?_, fun work name => work.ended_referrers name⟩
  intro table language config roots family budget chain pending h
  exact explanation_of_synthesizeWithin h

/-- With room for one copy, the turn of the sequence of nodes comes too late. Its chain begins with
the ring, and the sequence refers back to the nodes in it. -/
theorem chain_explains_ring :
    ring.synthesize Reader.language { maxSteps := some 1 } ["Ring"] = .error
        (.nonTerminating .privateCopy 1 ["Ring", "Node", "Nodes", "Node"] ["Nodes"]) ∧
      ∃ names back, ["Ring", "Node", "Nodes", "Node"] = names ++ back.toList ∧
        ring.Explanation "Nodes" names back ∧
        ∃ root ∈ ["Ring"], names.head? = ring.canonical? root := by
  have h : ring.synthesize Reader.language { maxSteps := some 1 } ["Ring"] = .error
      (.nonTerminating .privateCopy 1 ["Ring", "Node", "Nodes", "Node"] ["Nodes"]) := rfl
  obtain ⟨name, rest, names, back, hpending, hchain, hexplains, hroot⟩ :=
    chain_explains.1 _ _ _ _ _ _ _ _ h
  cases hpending
  exact ⟨h, names, back, hchain, hexplains, hroot rfl⟩

end Table

end CopySynth
