import CopySynth.Proofs.FirstOccurrence
import CopySynth.Worklist
import Mathlib.Data.List.Basic

/-!
# The order of a queue

A worklist hands out the names it is asked for in the order of their first mention, apart from the
names that are settled by other means. `Follows` ties the worklist to the list of all names asked
for so far; every operation of a run extends one of the three lists.
-/

namespace CopySynth.Worklist

/-- The names `asked` for so far, without the `settled` ones, are those `taken` from the queue
followed by those still waiting. A name may be taken before it is done, but nothing else is done. -/
structure Follows (work : Worklist) (asked settled taken : List String) : Prop where
  line : asked.eraseDups.filter (· ∉ settled) = taken ++ work.pending
  settled_done : ∀ n ∈ settled, n ∈ work.done
  done_cases : ∀ n ∈ work.done, n ∈ settled ∨ n ∈ taken
  queued_iff : ∀ n, n ∉ settled → (n ∈ work.queued ↔ n ∈ asked)

theorem Follows.empty : Follows .empty [] [] [] := by
  refine ⟨rfl, ?_, ?_, ?_⟩ <;> simp [Worklist.empty]

namespace Follows

variable {work : Worklist} {asked settled taken : List String}

theorem nodup (h : work.Follows asked settled taken) : (taken ++ work.pending).Nodup := by
  rw [← h.line]
  exact (nodup_eraseDups asked).filter _

theorem mem_iff (h : work.Follows asked settled taken) {n : String} :
    n ∈ taken ∨ n ∈ work.pending ↔ n ∈ asked ∧ n ∉ settled := by
  rw [← List.mem_append, ← h.line, List.mem_filter, List.mem_eraseDups]
  simp

/-- A name enters the line at its first mention, unless it is settled. -/
theorem accepts_iff (h : work.Follows asked settled taken) (n : String) :
    work.accepts n = true ↔ n ∉ settled ∧ n ∉ asked := by
  rw [accepts_eq_true_iff]
  constructor
  · rintro ⟨hd, hq⟩
    have hs : n ∉ settled := fun hs => hd (h.settled_done n hs)
    exact ⟨hs, fun ha => hq ((h.queued_iff n hs).mpr ha)⟩
  · rintro ⟨hs, ha⟩
    refine ⟨fun hd => ?_, fun hq => ha ((h.queued_iff n hs).mp hq)⟩
    have ht : n ∈ taken := (h.done_cases n hd).resolve_left hs
    exact ha (h.mem_iff.mp (.inl ht)).1

theorem push (h : work.Follows asked settled taken) (n : String) :
    (work.push n).Follows (asked ++ [n]) settled taken := by
  refine ⟨?_, ?_, ?_, ?_⟩
  · rw [pending_push, eraseDups_concat, ← List.append_assoc, ← h.line]
    by_cases ha : n ∈ asked
    · have : ¬ work.accepts n = true := fun hc => ((h.accepts_iff n).mp hc).2 ha
      simp [ha, this]
    · by_cases hs : n ∈ settled
      · have : ¬ work.accepts n = true := fun hc => ((h.accepts_iff n).mp hc).1 hs
        simp [ha, hs, this]
      · have : work.accepts n = true := (h.accepts_iff n).mpr ⟨hs, ha⟩
        simp [ha, hs, this]
  · simpa using h.settled_done
  · simpa using h.done_cases
  · intro m hm
    rw [queued_push, List.mem_append, h.queued_iff m hm, List.mem_append, List.mem_singleton]
    by_cases haccepts : work.accepts n = true
    · simp [haccepts]
    · -- a name that is not accepted was asked for before, unless it is settled
      have hcase : n ∈ settled ∨ n ∈ asked := by
        by_contra hc
        exact haccepts ((h.accepts_iff n).mpr (not_or.mp hc))
      rw [if_neg haccepts, or_iff_left List.not_mem_nil]
      constructor
      · exact .inl
      · rintro (ha | rfl)
        · exact ha
        · exact hcase.resolve_left hm

theorem note (h : work.Follows asked settled taken) (n requester : String) :
    (work.note n requester).Follows asked settled taken := by
  refine ⟨by rw [pending_note]; exact h.line, ?_, ?_, ?_⟩
  · rw [done_note]; exact h.settled_done
  · rw [done_note]; exact h.done_cases
  · rw [queued_note]; exact h.queued_iff

theorem require (h : work.Follows asked settled taken) (n requester : String) :
    (work.require n requester).Follows (asked ++ [n]) settled taken :=
  (h.note n requester).push n

theorem requireAll (h : work.Follows asked settled taken) (names : List String)
    (requester : String) :
    (work.requireAll names requester).Follows (asked ++ names) settled taken := by
  induction names generalizing work asked with
  | nil => simpa [Worklist.requireAll] using h
  | cons n names ih => simpa [Worklist.requireAll] using ih (h.require n requester)

theorem pushAll (h : work.Follows asked settled taken) (names : List String) :
    (names.foldl Worklist.push work).Follows (asked ++ names) settled taken := by
  induction names generalizing work asked with
  | nil => simpa using h
  | cons n names ih => simpa using ih (h.push n)

/-- Only the first mentions count. -/
theorem congr (h : work.Follows asked settled taken) {others : List String}
    (ho : others.eraseDups = asked.eraseDups) : work.Follows others settled taken := by
  refine ⟨by rw [ho]; exact h.line, h.settled_done, h.done_cases, ?_⟩
  intro n hn
  rw [h.queued_iff n hn, ← List.mem_eraseDups, ← ho, List.mem_eraseDups]

/-- Before anything is taken, a name can be settled; it leaves the line if it stands there. -/
theorem settle (h : work.Follows asked settled []) (n : String) :
    (work.markDone n).Follows asked (settled ++ [n]) [] := by
  have hline := h.line
  simp only [List.nil_append] at hline
  refine ⟨?_, ?_, ?_, ?_⟩
  -- nothing is taken yet, so what is done is settled and no longer in line
  · have hsplit : asked.eraseDups.filter (· ∉ settled ++ [n]) = work.pending.filter (· ≠ n) := by
      rw [← hline, List.filter_filter]
      refine List.filter_congr fun m _ => ?_
      simp [and_comm]
    rw [hsplit, List.nil_append, pending_markDone]
  · intro m hm
    rw [mem_done_markDone]
    rcases List.mem_append.mp hm with hm | hm
    · exact .inr (h.settled_done m hm)
    · exact .inl (List.mem_singleton.mp hm)
  · intro m hm
    rw [mem_done_markDone] at hm
    rcases hm with rfl | hm
    · simp
    · have : m ∈ settled := by simpa using h.done_cases m hm
      simp [this]
  · intro m hm
    have hm' : m ∉ settled := fun hc => hm (List.mem_append_left _ hc)
    rw [queued_markDone, h.queued_iff m hm']

/-- The name whose turn it is comes next among those taken. -/
theorem pop (h : work.Follows asked settled taken) {n : String} {rest : Worklist}
    (hp : work.pop? = some (n, rest)) : rest.Follows asked settled (taken ++ [n]) := by
  obtain ⟨rfl, hpend⟩ := pending_of_pop hp
  refine ⟨by rw [h.line, hpend]; simp, h.settled_done, ?_, h.queued_iff⟩
  intro m hm
  rcases h.done_cases m hm with hs | ht
  · exact .inl hs
  · exact .inr (by simp [ht])

/-- A name that was taken can be done without changing the line. -/
theorem finish (h : work.Follows asked settled taken) {n : String} (hn : n ∈ taken) :
    (work.markDone n).Follows asked settled taken := by
  have hnot : n ∉ work.pending := fun hp =>
    (List.disjoint_of_nodup_append h.nodup) hn hp
  have hsame : (work.markDone n).pending = work.pending := by
    rw [pending_markDone, List.filter_eq_self]
    exact fun m hm => by simpa using fun hmn : m = n => hnot (hmn ▸ hm)
  refine ⟨by rw [hsame]; exact h.line, ?_, ?_, ?_⟩
  · intro m hm
    rw [mem_done_markDone]
    exact .inr (h.settled_done m hm)
  · intro m hm
    rw [mem_done_markDone] at hm
    rcases hm with rfl | hm
    · exact .inr hn
    · exact h.done_cases m hm
  · rw [queued_markDone]; exact h.queued_iff

end Follows

end CopySynth.Worklist
