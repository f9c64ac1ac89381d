import CopySynth.Generation.Closure
import CopySynth.Proofs.QueueHistory
import Mathlib.Data.List.Chain
import Mathlib.Data.List.Perm.Subperm

/-!
# Who asked for a name

A worklist keeps for each name who asked for it first. The way back from a name, to who asked for
it, to who asked for that, and so on, passes distinct names. It ends at a name that nobody asked
for, or where it would come to a name a second time.

Names are processed one after another, and a name asks for others while it is processed. It is noted
only for names that are not done, so it was processed before them, unless it asked for itself. A
name from the queue never is the first to ask for itself. So the way back from a name in the queue
leads to a name that the processing started from.
-/

namespace CopySynth.Worklist

variable {work : Worklist} {name asker : String} {chain : List String}

/-! ## The way back from a name -/

/-- Each name of the chain was the first to ask for the next, down to `name`, and none repeats. -/
structure Explains (work : Worklist) (name : String) (chain : List String) : Prop where
  once : chain.Nodup
  last : chain.getLast? = some name
  asked : chain.IsChain fun asker asked => work.requester? asked = some asker

/-- The way back has ended: nobody asked for the first name, or only a name of the chain. -/
def Ended (work : Worklist) (chain : List String) : Prop :=
  ∀ asker, chain.head?.bind work.requester? = some asker → asker ∈ chain

theorem Explains.single (work : Worklist) (name : String) : work.Explains name [name] :=
  ⟨List.nodup_singleton name, rfl, List.isChain_singleton name⟩

theorem Explains.extend (h : work.Explains name chain)
    (hr : chain.head?.bind work.requester? = some asker) (hn : asker ∉ chain) :
    work.Explains name (asker :: chain) := by
  obtain ⟨first, hfirst, hasked⟩ := Option.bind_eq_some_iff.mp hr
  obtain ⟨rest, rfl⟩ := List.head?_eq_some_iff.mp hfirst
  refine ⟨List.nodup_cons.mpr ⟨hn, h.once⟩, ?_, List.isChain_cons_cons.mpr ⟨hasked, h.asked⟩⟩
  rw [List.getLast?_cons_cons]
  exact h.last

/-- A name that nobody asked for is a chain of its own. -/
theorem Explains.eq_singleton (h : work.Explains name chain) (hr : work.requester? name = none) :
    chain = [name] := by
  obtain ⟨init, rfl⟩ := List.getLast?_eq_some_iff.mp h.last
  cases hinit : init.getLast? with
  | none =>
    rw [List.getLast?_eq_none_iff.mp hinit]
    rfl
  | some asker =>
    have hasked := (List.isChain_append.mp h.asked).2.2 asker hinit name rfl
    rw [hr] at hasked
    cases hasked

theorem Explains.referrers (h : work.Explains name chain) (steps : Nat) :
    work.Explains name (work.referrers steps chain) := by
  induction steps generalizing chain with
  | zero => exact h
  | succ steps ih =>
    rw [Worklist.referrers]
    cases hr : chain.head?.bind work.requester? with
    | none => exact h
    | some asker =>
      dsimp only
      split
      · exact h
      · rename_i hn
        exact ih (h.extend hr hn)

/-- As long as somebody asked for its first name, the chain has only names that were asked for. -/
theorem Explains.length_le (h : work.Explains name chain)
    (hr : chain.head?.bind work.requester? = some asker) :
    chain.length ≤ work.requesters.length := by
  have hkey : ∀ asked asker, work.requester? asked = some asker →
      asked ∈ work.requesters.map Prod.fst := by
    intro asked asker hasked
    obtain ⟨before, after, hsplit, _⟩ := List.lookup_eq_some_iff.mp hasked
    simp [hsplit]
  obtain ⟨first, hfirst, hasked⟩ := Option.bind_eq_some_iff.mp hr
  obtain ⟨rest, rfl⟩ := List.head?_eq_some_iff.mp hfirst
  have hsub : first :: rest ⊆ work.requesters.map Prod.fst :=
    List.forall_mem_cons.mpr ⟨hkey _ _ hasked, h.asked.cons_induction
      (· ∈ work.requesters.map Prod.fst) rest (fun _ _ hnext _ => hkey _ _ hnext)
      (hkey _ _ hasked)⟩
  have hle := (List.subperm_of_subset h.once hsub).length_le
  rwa [List.length_map] at hle

/-- With as many steps as names were asked for, the way back ends by itself. -/
theorem Explains.ended (h : work.Explains name chain) {steps : Nat}
    (hs : work.requesters.length < steps + chain.length) :
    work.Ended (work.referrers steps chain) := by
  induction steps generalizing chain with
  | zero =>
    intro asker hr
    have := h.length_le hr
    omega
  | succ steps ih =>
    rw [Worklist.referrers]
    cases hr : chain.head?.bind work.requester? with
    | none =>
      intro asker hasked
      rw [hr] at hasked
      cases hasked
    | some asker =>
      dsimp only
      split
      · rename_i hin
        intro other hother
        rw [hr] at hother
        cases hother
        exact hin
      · rename_i hn
        refine ih (h.extend hr hn) ?_
        rw [List.length_cons]
        omega

theorem ended_referrers (work : Worklist) (name : String) :
    work.Ended (work.referrers work.requesters.length [name]) :=
  (Explains.single work name).ended (Nat.lt_succ_self _)

/-! ## What one name asks for -/

theorem requester?_require (work : Worklist) (name asker other : String) :
    (work.require name asker).requester? other = (work.requester? other).or
      (if work.isDone name = false ∧ name = other then some asker else none) := by
  rw [require, requester?_push, requester?_note]

theorem requireAll_cons (work : Worklist) (first : String) (rest : List String) (asker : String) :
    work.requireAll (first :: rest) asker = (work.require first asker).requireAll rest asker :=
  rfl

theorem requester?_requireAll_of_some {names : List String} {other before : String}
    (h : work.requester? other = some before) (asker : String) :
    (work.requireAll names asker).requester? other = some before := by
  induction names generalizing work with
  | nil => exact h
  | cons first rest ih =>
    rw [requireAll_cons]
    refine ih ?_
    rw [requester?_require, h, Option.some_or]

@[simp] theorem done_requireAll (names : List String) (asker : String) :
    (work.requireAll names asker).done = work.done := by
  induction names generalizing work with
  | nil => rfl
  | cons first rest ih =>
    rw [requireAll_cons, ih, require, done_push, done_note]

/-- Who asked for a name asked before, or asks now for a name that is not done and that nobody asked
for. -/
theorem requester?_requireAll_cases {names : List String} {other found : String}
    (h : (work.requireAll names asker).requester? other = some found) :
    work.requester? other = some found ∨
      (found = asker ∧ work.requester? other = none ∧ other ∈ names ∧ other ∉ work.done) := by
  induction names generalizing work with
  | nil => exact .inl h
  | cons first rest ih =>
    rw [requireAll_cons] at h
    rcases ih h with hbefore | ⟨rfl, hnone, hin, hdone⟩
    · rw [requester?_require] at hbefore
      cases hr : work.requester? other with
      | some before =>
        rw [hr, Option.some_or] at hbefore
        exact .inl hbefore
      | none =>
        rw [hr, Option.none_or] at hbefore
        split at hbefore
        · rename_i hasked
          cases hbefore
          obtain ⟨hdone, rfl⟩ := hasked
          exact .inr ⟨rfl, rfl, List.mem_cons_self, by simpa [isDone] using hdone⟩
        · cases hbefore
    · rw [requester?_require, Option.or_eq_none_iff] at hnone
      rw [require, done_push, done_note] at hdone
      exact .inr ⟨rfl, hnone.1, List.mem_cons_of_mem _ hin, hdone⟩

/-- A name enters the queue together with who asked for it. -/
theorem mem_queued_requireAll_cases {names : List String} {other : String}
    (h : other ∈ (work.requireAll names asker).queued) :
    other ∈ work.queued ∨ ((work.requireAll names asker).requester? other).isSome := by
  induction names generalizing work with
  | nil => exact .inl h
  | cons first rest ih =>
    rw [requireAll_cons] at h ⊢
    rcases ih h with hbefore | hasked
    · rw [require, queued_push, queued_note, List.mem_append] at hbefore
      refine hbefore.imp_right fun hnew => ?_
      split at hnew
      · rename_i haccepts
        cases List.mem_singleton.mp hnew
        rw [accepts_note, accepts_eq_true_iff] at haccepts
        obtain ⟨found, hfound⟩ : ∃ found, (work.require other asker).requester? other =
            some found := by
          rw [requester?_require]
          cases work.requester? other with
          | some before => exact ⟨before, rfl⟩
          | none => exact ⟨asker, by simp [isDone, haccepts.1]⟩
        exact Option.isSome_iff_exists.mpr ⟨found, requester?_requireAll_of_some hfound asker⟩
      · exact absurd hnew List.not_mem_nil
    · exact .inr hasked

theorem subset_queued_requireAll (work : Worklist) (names : List String) (asker : String) :
    work.queued ⊆ (work.requireAll names asker).queued := by
  induction names generalizing work with
  | nil => exact List.Subset.refl _
  | cons first rest ih =>
    refine List.Subset.trans ?_ (ih (work.require first asker))
    rw [require, queued_push, queued_note]
    exact List.subset_append_left _ _

/-! ## Names processed one after another -/

/-- The state of a worklist when names were processed in this order. Each was one to start from or
stood in the queue, and the names it asked for come after it, unless it starts and asked for
itself. -/
structure Traced (work : Worklist) (starts processed : List String) : Prop where
  done : ∀ n ∈ processed, n ∈ work.done
  reached : ∀ n ∈ processed, n ∈ starts ∨ n ∈ work.queued
  asked : ∀ n ∈ work.queued, (work.requester? n).isSome
  later : ∀ n asker, work.requester? n = some asker →
    processed.idxOf asker < processed.idxOf n ∨ (asker = n ∧ n ∈ starts)

section Places

variable {processed : List String} {first second : String}

theorem mem_of_idxOf_lt (h : processed.idxOf first < processed.idxOf second) :
    first ∈ processed := by
  have hlength := List.idxOf_le_length (a := second) (l := processed)
  exact List.idxOf_lt_length_iff.mp (by omega)

/-- Names keep their order when one more is processed. -/
theorem idxOf_append_lt (h : processed.idxOf first < processed.idxOf second) (name : String) :
    (processed ++ [name]).idxOf first < (processed ++ [name]).idxOf second := by
  have hlength := List.idxOf_le_length (a := second) (l := processed)
  rw [List.idxOf_append_of_mem (mem_of_idxOf_lt h)]
  by_cases hs : second ∈ processed
  · rwa [List.idxOf_append_of_mem hs]
  · rw [List.idxOf_append_of_notMem hs]
    omega

/-- A name comes before those that were not processed yet. -/
theorem idxOf_append_lt_of_notMem (hf : first ∉ processed) (hs : second ∉ processed)
    (hne : second ≠ first) :
    (processed ++ [first]).idxOf first < (processed ++ [first]).idxOf second := by
  rw [List.idxOf_append_of_notMem hf, List.idxOf_append_of_notMem hs, List.idxOf_cons_self,
    List.idxOf_cons_ne _ hne.symm]
  omega

end Places

namespace Traced

variable {starts processed : List String}

theorem empty : Traced .empty [] [] := by
  refine ⟨?_, ?_, ?_, ?_⟩ <;> simp [Worklist.empty, requester?]

theorem pop (h : work.Traced starts processed) : work.pop.2.Traced starts processed :=
  ⟨h.done, h.reached, h.asked, h.later⟩

/-- A name is processed: it asks for names, and then it is done. -/
theorem process (h : work.Traced starts processed) {more : List String} (hnew : name ∉ processed)
    (hstarts : starts ⊆ more) (hreached : name ∈ more ∨ name ∈ work.queued) (names : List String) :
    ((work.requireAll names name).markDone name).Traced more (processed ++ [name]) := by
  refine ⟨?_, ?_, ?_, ?_⟩
  · intro n hn
    rw [mem_done_markDone, done_requireAll]
    rcases List.mem_append.mp hn with hn | hn
    · exact .inr (h.done n hn)
    · exact .inl (List.mem_singleton.mp hn)
  · intro n hn
    rw [queued_markDone]
    rcases List.mem_append.mp hn with hn | hn
    · exact (h.reached n hn).imp (hstarts ·) (subset_queued_requireAll _ _ _ ·)
    · rw [List.mem_singleton.mp hn]
      exact hreached.imp id (subset_queued_requireAll _ _ _ ·)
  · intro n hn
    rw [queued_markDone] at hn
    rw [requester?_markDone]
    rcases mem_queued_requireAll_cases hn with hn | hasked
    · obtain ⟨before, hbefore⟩ := Option.isSome_iff_exists.mp (h.asked n hn)
      rw [requester?_requireAll_of_some hbefore]
      rfl
    · exact hasked
  · intro n asker hr
    rw [requester?_markDone] at hr
    rcases requester?_requireAll_cases hr with hbefore | ⟨rfl, hnone, _, hdone⟩
    · rcases h.later n asker hbefore with hlt | ⟨hself, hn⟩
      · exact .inl (idxOf_append_lt hlt name)
      · exact .inr ⟨hself, hstarts hn⟩
    · have hn : n ∉ processed := fun hn => hdone (h.done n hn)
      by_cases hself : n = asker
      · -- a name that stood in the queue was asked for before
        subst hself
        refine .inr ⟨rfl, hreached.resolve_right fun hq => ?_⟩
        have hasked := h.asked n hq
        rw [hnone] at hasked
        cases hasked
      · exact .inl (idxOf_append_lt_of_notMem hnew hn hself)

/-- The name whose turn it is comes from the queue, and was not processed before. -/
theorem turn (h : work.Traced starts processed) {rest : Worklist}
    (hp : work.pop? = some (name, rest)) (names : List String) :
    ((rest.requireAll names name).markDone name).Traced starts (processed ++ [name]) := by
  have hwaits := mem_pending_of_pop hp
  obtain ⟨rfl, _⟩ := pending_of_pop hp
  obtain ⟨hq, hnot⟩ := List.mem_filter.mp hwaits
  refine h.pop.process (fun hn => ?_) (List.Subset.refl _) (.inr (List.mem_of_mem_drop hq)) names
  exact of_decide_eq_true hnot (h.done name hn)

/-- The way back from a name of the queue leads to a name to start from. -/
theorem head_mem_starts (h : work.Traced starts processed) (hq : name ∈ work.queued)
    (he : work.Explains name chain) (hend : work.Ended chain) :
    ∃ first ∈ starts, chain.head? = some first := by
  cases chain with
  | nil => cases he.last
  | cons first rest =>
    refine ⟨first, ?_, rfl⟩
    have hcase : first ∈ starts ∨ first ∈ work.queued := by
      cases rest with
      | nil =>
        cases he.last
        exact .inr hq
      | cons second rest =>
        rcases h.later second first (List.isChain_cons_cons.mp he.asked).1 with hlt | ⟨rfl, hs⟩
        · exact h.reached first (mem_of_idxOf_lt hlt)
        · exact .inl hs
    refine hcase.elim id fun hq => ?_
    obtain ⟨asker, hasker⟩ := Option.isSome_iff_exists.mp (h.asked first hq)
    rcases h.later first asker hasker with hlt | ⟨_, hs⟩
    · -- the chain has the one who asked, and names stand in it in the order of processing
      have hin : asker ∈ first :: rest := hend asker hasker
      have horder : ∀ n ∈ rest, processed.idxOf first ≤ processed.idxOf n :=
        he.asked.cons_induction (processed.idxOf first ≤ processed.idxOf ·) rest
          (fun before n hnext hle => by
            rcases h.later n before hnext with hlt | ⟨rfl, _⟩ <;> omega)
          (Nat.le_refl _)
      rcases List.mem_cons.mp hin with rfl | hin
      · omega
      · have := horder asker hin
        omega
    · exact hs

end Traced

end CopySynth.Worklist
