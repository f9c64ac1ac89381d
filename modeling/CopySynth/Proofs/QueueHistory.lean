import CopySynth.Worklist
import Mathlib.Data.List.Basic
import Mathlib.Data.List.Nodup

/-!
# A worklist as a queue

A history lists the orders a worklist was given, each with its reply. It tells which names were put
in line, which were handed out and which were made done. The names in line that are neither handed
out nor done wait, in the order in which they were put in line; this list alone decides what the
worklist replies from then on, and each of its views shows this list.
-/

namespace CopySynth.Worklist

/-- The orders given to a worklist, each with its reply. -/
abbrev History := List (Order × Reply)

/-- Carries out orders one after another. -/
def carryOut (work : Worklist) : List Order → History × Worklist
  | [] => ([], work)
  | order :: orders =>
    let (reply, next) := work.perform order
    let (replies, final) := next.carryOut orders
    ((order, reply) :: replies, final)

/-- The name that an order asks to put in line. -/
def Order.lines? : Order → Option String
  | .push name | .require name _ => some name
  | .pop | .markDone _ => none

/-- The name that an order makes done. -/
def Order.finishes? : Order → Option String
  | .markDone name => some name
  | .push _ | .require _ _ | .pop => none

/-- The name that a reply hands out. -/
def Reply.hands? : Reply → Option String
  | .handed name => name
  | .changed _ => none

namespace History

/-- The names put in line, in order. -/
def lined (history : History) : List String :=
  history.flatMap fun entry => if entry.2 = .changed true then entry.1.lines?.toList else []

/-- The names handed out, in order. -/
def handed (history : History) : List String :=
  history.flatMap fun entry => entry.2.hands?.toList

/-- The names that were made done. -/
def finished (history : History) : List String :=
  history.flatMap fun entry => entry.1.finishes?.toList

/-- The names in line that were neither handed out nor made done. -/
def waiting (history : History) : List String :=
  history.lined.filter fun name => name ∉ history.handed ∧ name ∉ history.finished

/-- Who asked for a name first, before it was done. -/
def requester? (name : String) : History → Option String
  | [] => none
  | (.require other requester, _) :: rest =>
    if other = name then some requester else requester? name rest
  | (.markDone other, _) :: rest => if other = name then none else requester? name rest
  | (.push _, _) :: rest | (.pop, _) :: rest => requester? name rest

/-- What a queue of distinct names replies: it puts a name in line that never was and is not done,
hands out the name that waits longest, and makes a name done once. -/
def reply (history : History) : Order → Reply
  | .push name | .require name _ =>
    .changed (name ∉ history.lined ∧ name ∉ history.finished)
  | .pop => .handed history.waiting.head?
  | .markDone name => .changed (name ∉ history.finished)

end History

/-- The worklist is the queue that its history tells of. -/
structure Queue (history : History) (work : Worklist) : Prop where
  /-- It replies as the queue. -/
  replies : ∀ order, (work.perform order).1 = history.reply order
  /-- Its pending names are the names waiting. -/
  pending : work.pending = history.waiting
  /-- Their number is that of the names waiting. -/
  pendingLength : work.pendingLength = history.waiting.length
  /-- It is empty when no name waits. -/
  isEmpty : work.isEmpty = true ↔ history.waiting = []
  /-- A name is pending when it waits. -/
  isPending : ∀ name, work.isPending name = true ↔ name ∈ history.waiting
  /-- A name is done when it was made so. -/
  isDone : ∀ name, work.isDone name = true ↔ name ∈ history.finished
  /-- No name is pending and done. -/
  apart : ∀ name, ¬ (work.isPending name = true ∧ work.isDone name = true)
  /-- The requester of a name is who asked for it first, before it was done. -/
  requester : ∀ name, work.requester? name = history.requester? name
  /-- No name was put in line or handed out twice. -/
  once : history.lined.Nodup ∧ history.handed.Nodup

/-! ## The cursor and the queue -/

/-- A place in the queue that has not come up is one behind the cursor. -/
theorem isPending_iff (work : Worklist) (name : String) :
    work.isPending name = true ↔ name ∈ work.pending := by
  rw [isPending, Option.any_eq_true, pending, List.mem_filter, List.mem_drop_iff_getElem]
  constructor
  · rintro ⟨place, hplace, h⟩
    obtain ⟨hlt, hname, -⟩ := List.idxOf?_eq_some_iff.mp hplace
    simp only [isDone, Bool.and_eq_true, decide_eq_true_eq, Bool.not_eq_true',
      decide_eq_false_iff_not] at h
    refine ⟨⟨place - work.cursor, by omega, ?_⟩, by simpa using h.2⟩
    simpa only [Nat.add_sub_cancel' h.1] using hname
  · rintro ⟨⟨further, hlt, hname⟩, hdone⟩
    refine ⟨work.cursor + further, List.idxOf?_eq_some_iff.mpr ⟨by omega, hname, ?_⟩, ?_⟩
    · -- the name has no other place, since no name is queued twice
      intro earlier hearlier hsame
      have := work.distinct.getElem_inj_iff.mp (hsame.trans hname.symm)
      omega
    · simpa [isDone] using hdone

/-- Somebody who asks for a name is kept if nobody asked before and the name is not done. -/
theorem requester?_note (work : Worklist) (name requester other : String) :
    (work.note name requester).requester? other =
      (work.requester? other).or
        (if work.isDone name = false ∧ name = other then some requester else none) := by
  unfold note
  by_cases hdone : work.isDone name = true
  · simp [hdone]
  by_cases hother : name = other
  · subst hother
    cases hasked : work.requester? name with
    | some before => simp [hasked]
    | none =>
      rw [requester?] at hasked
      simp [requester?, hdone, hasked, List.lookup_append]
  · have hne : (other == name) = false := by simpa using Ne.symm hother
    simp only [hdone, hother, and_false, if_false, Option.or_none, Bool.false_or]
    split
    · rfl
    · simp [requester?, List.lookup_append, List.lookup_cons, hne]

theorem requester?_push (work : Worklist) (name other : String) :
    (work.push name).requester? other = work.requester? other := by
  unfold push
  split <;> rfl

theorem requester?_markDone (work : Worklist) (name other : String) :
    (work.markDone name).requester? other = work.requester? other := by
  unfold markDone
  split <;> rfl

/-! ## What one order adds to a history -/

section Concat

variable (history : History) (order : Order) (reply : Reply)

@[simp] theorem lined_concat : History.lined (history ++ [(order, reply)]) =
    history.lined ++ if reply = .changed true then order.lines?.toList else [] := by
  simp [History.lined]

@[simp] theorem handed_concat : History.handed (history ++ [(order, reply)]) =
    history.handed ++ reply.hands?.toList := by
  simp [History.handed]

@[simp] theorem finished_concat : History.finished (history ++ [(order, reply)]) =
    history.finished ++ order.finishes?.toList := by
  simp [History.finished]

theorem waiting_concat : History.waiting (history ++ [(order, reply)]) =
    (history.lined ++ if reply = .changed true then order.lines?.toList else []).filter
      fun name => name ∉ history.handed ++ reply.hands?.toList ∧
        name ∉ history.finished ++ order.finishes?.toList := by
  rw [History.waiting, lined_concat, handed_concat, finished_concat]

/-- Who asked first is known from the part of a history in which somebody asked, or from the rest if
the name was not done before. -/
theorem requester?_append (name : String) (history more : History) :
    History.requester? name (history ++ more) = (history.requester? name).or
      (if name ∈ history.finished then none else more.requester? name) := by
  induction history with
  | nil => simp [History.requester?, History.finished]
  | cons entry history ih =>
    obtain ⟨order, reply⟩ := entry
    have hfinished : History.finished ((order, reply) :: history) =
        order.finishes?.toList ++ History.finished history := by simp [History.finished]
    rw [List.cons_append]
    cases order with
    | push | pop => simpa [History.requester?, hfinished, Order.finishes?] using ih
    | require other requester =>
      by_cases h : other = name
      · simp [History.requester?, h]
      · simpa [History.requester?, h, hfinished, Order.finishes?] using ih
    | markDone other =>
      by_cases h : other = name
      · rw [hfinished]
        simp [History.requester?, h, Order.finishes?]
      · simpa [History.requester?, h, Ne.symm h, hfinished, Order.finishes?] using ih

end Concat

theorem tail_eq_filter {names : List String} (h : names.Nodup) :
    names.tail = names.filter (· ∉ names.head?.toList) := by
  cases names with
  | nil => rfl
  | cons name rest =>
    have hnot : ∀ other ∈ rest, other ≠ name := fun other ho hsame =>
      (List.nodup_cons.mp h).1 (hsame ▸ ho)
    simpa using (List.filter_eq_self.mpr fun other ho => by simpa using hnot other ho).symm

/-! ## The invariant of a history -/

/-- The state of a worklist that has this history. -/
structure Reflects (history : History) (work : Worklist) : Prop where
  queued : work.queued = history.lined
  done : ∀ name, name ∈ work.done ↔ name ∈ history.finished
  pending : work.pending = history.waiting
  handed : ∀ name ∈ history.handed, name ∈ history.lined
  once : history.handed.Nodup
  requester : ∀ name, work.requester? name = history.requester? name

namespace Reflects

variable {history : History} {work : Worklist}

theorem empty : Reflects [] Worklist.empty := by
  refine ⟨rfl, ?_, rfl, ?_, .nil, fun _ => rfl⟩ <;>
    simp [Worklist.empty, History.finished, History.handed]

theorem accepts_iff (h : Reflects history work) (name : String) :
    work.accepts name = true ↔ name ∉ history.lined ∧ name ∉ history.finished := by
  rw [accepts_eq_true_iff, h.queued, h.done, and_comm]

theorem isDone_iff (h : Reflects history work) (name : String) :
    work.isDone name = true ↔ name ∈ history.finished := by
  rw [isDone, decide_eq_true_eq, h.done]

/-- An order that asks for a name puts it in line unless it was there or is done. -/
theorem lineUp (h : Reflects history work) {asked : Worklist} {order : Order} {name : String}
    (hqueued : asked.queued = work.queued) (hdone : asked.done = work.done)
    (hpending : asked.pending = work.pending) (hline : order.lines? = some name)
    (hrequester : ∀ other, asked.requester? other = (history.requester? other).or
      (if other ∈ history.finished then none
        else History.requester? other [(order, .changed (work.accepts name))])) :
    Reflects (history ++ [(order, .changed (work.accepts name))]) (asked.push name) := by
  have hfinishes : order.finishes? = none := by cases order <;> first | rfl | cases hline
  have haccepts : asked.accepts name = work.accepts name := by
    rw [accepts, accepts, isDone, isDone, hqueued, hdone]
  have hlined : History.lined (history ++ [(order, .changed (work.accepts name))]) =
      history.lined ++ if work.accepts name then [name] else [] := by
    simp [hline]
  refine ⟨?_, ?_, ?_, ?_, ?_, ?_⟩
  · rw [queued_push, haccepts, hqueued, h.queued, hlined]
  · simp [hdone, h.done, hfinishes]
  · rw [pending_push, haccepts, hpending, h.pending, waiting_concat, hfinishes, hline,
      List.filter_append]
    simp only [Reply.hands?, Option.toList_none, List.append_nil, Reply.changed.injEq]
    congr 1
    -- a name that is accepted was never in line, so it was not handed out
    split
    · rename_i hnew
      obtain ⟨hnever, hfinished⟩ := (h.accepts_iff name).mp hnew
      have hunhanded := mt (h.handed name) hnever
      simp [hfinished, hunhanded]
    · rfl
  · intro other ho
    rw [handed_concat, Reply.hands?, Option.toList_none, List.append_nil] at ho
    rw [hlined]
    exact List.mem_append_left _ (h.handed other ho)
  · simpa [Reply.hands?] using h.once
  · intro other
    rw [requester?_push, hrequester, requester?_append]

theorem push (h : Reflects history work) (name : String) :
    Reflects (history ++ [(.push name, .changed (work.accepts name))]) (work.push name) := by
  refine h.lineUp rfl rfl rfl rfl fun other => ?_
  simp [h.requester, History.requester?]

theorem require (h : Reflects history work) (name requester : String) :
    Reflects (history ++ [(.require name requester, .changed (work.accepts name))])
      (work.require name requester) := by
  refine h.lineUp (queued_note ..) (done_note ..) (pending_note ..) rfl fun other => ?_
  rw [requester?_note, h.requester]
  congr 1
  by_cases hother : name = other
  · subst hother
    by_cases hdone : name ∈ history.finished
    · simp [(h.isDone_iff name).mpr hdone, hdone]
    · simp [mt (h.isDone_iff name).mp hdone, hdone, History.requester?]
  · simp [hother, History.requester?]

/-- The name handed out is the one that waits longest, and it waits no longer. -/
theorem pop (h : Reflects history work) :
    Reflects (history ++ [(.pop, .handed work.pop.1)]) work.pop.2 := by
  have hnames : work.pop.1 = history.waiting.head? := by rw [work.pop_eq.1, h.pending]
  have hwaiting : ∀ name ∈ work.pop.1.toList, name ∈ history.lined ∧ name ∉ history.handed := by
    intro name hn
    rw [hnames] at hn
    have hin := List.mem_of_mem_head? (Option.mem_toList.mp hn)
    obtain ⟨hlined, hnot⟩ := List.mem_filter.mp hin
    exact ⟨hlined, by simpa using (of_decide_eq_true hnot).1⟩
  have hlined : History.lined (history ++ [(.pop, .handed work.pop.1)]) = history.lined := by
    simp
  refine ⟨?_, ?_, ?_, ?_, ?_, ?_⟩
  · rw [queued_pop, h.queued, hlined]
  · simp [h.done, Order.finishes?]
  · have hnodup : history.waiting.Nodup := by
      rw [History.waiting, ← h.queued]
      exact work.distinct.filter _
    rw [work.pop_eq.2, h.pending, tail_eq_filter hnodup, ← hnames, waiting_concat,
      History.waiting, List.filter_filter]
    simp only [reduceCtorEq, if_false, List.append_nil]
    refine List.filter_congr fun name _ => ?_
    simp [Order.finishes?, Reply.hands?, and_comm, and_left_comm]
  · intro name hn
    rw [hlined]
    rw [handed_concat] at hn
    exact (List.mem_append.mp hn).elim (h.handed name) fun hn => (hwaiting name hn).1
  · rw [handed_concat]
    refine List.nodup_append.mpr ⟨h.once, ?_, ?_⟩
    · cases work.pop.1 <;> simp [Reply.hands?]
    · rintro name hin _ hn rfl
      exact (hwaiting name hn).2 hin
  · intro name
    rw [requester?_append]
    have hsame : work.pop.2.requester? name = work.requester? name := rfl
    simpa [History.requester?, hsame] using h.requester name

/-- A name that is made done no longer waits. -/
theorem markDone (h : Reflects history work) (name : String) :
    Reflects (history ++ [(.markDone name, .changed (!work.isDone name))])
      (work.markDone name) := by
  refine ⟨?_, ?_, ?_, ?_, ?_, ?_⟩
  · simp [h.queued, Order.lines?]
  · intro other
    rw [mem_done_markDone, h.done, finished_concat]
    simp [Order.finishes?, or_comm]
  · rw [pending_markDone, h.pending, waiting_concat, History.waiting, List.filter_filter]
    simp only [Order.lines?, Option.toList_none, ite_self, List.append_nil]
    refine List.filter_congr fun other _ => ?_
    simp [Order.finishes?, Reply.hands?, Bool.and_comm, Bool.and_assoc]
  · simpa [Order.lines?, Reply.hands?] using h.handed
  · simpa [Reply.hands?] using h.once
  · intro other
    rw [requester?_markDone, requester?_append, h.requester]
    simp [History.requester?]

/-- An order keeps the worklist in step with its history. -/
theorem perform (h : Reflects history work) (order : Order) :
    Reflects (history ++ [(order, (work.perform order).1)]) (work.perform order).2 := by
  cases order with
  | push name => exact h.push name
  | require name requester => exact h.require name requester
  | pop => exact h.pop
  | markDone name => exact h.markDone name

/-- And so do orders one after another. -/
theorem carryOut (h : Reflects history work) (orders : List Order) :
    Reflects (history ++ (work.carryOut orders).1) (work.carryOut orders).2 := by
  induction orders generalizing history work with
  | nil => simpa [Worklist.carryOut] using h
  | cons order orders ih => simpa [Worklist.carryOut] using ih (h.perform order)

/-- The queue that the history tells of replies as the worklist does. -/
theorem replies (h : Reflects history work) (order : Order) :
    (work.perform order).1 = history.reply order := by
  have haccepts (name : String) : work.accepts name =
      decide (name ∉ history.lined ∧ name ∉ history.finished) := by
    rw [Bool.eq_iff_iff, h.accepts_iff, decide_eq_true_eq]
  cases order with
  | push name | require name _ =>
    rw [Worklist.perform, History.reply, haccepts]
  | pop => rw [Worklist.perform, History.reply, work.pop_eq.1, h.pending]
  | markDone name => simp [Worklist.perform, History.reply, Worklist.isDone, h.done]

theorem queue (h : Reflects history work) : Queue history work := by
  have hpending (name : String) : work.isPending name = true ↔ name ∈ history.waiting := by
    rw [work.isPending_iff, h.pending]
  refine ⟨h.replies, h.pending, ?_, ?_, hpending, h.isDone_iff, ?_, h.requester, ?_, h.once⟩
  · rw [Worklist.pendingLength, h.pending]
  · rw [Worklist.isEmpty, Option.isNone_iff_eq_none, List.head?_eq_none_iff, h.pending]
  · rintro name ⟨hwaits, hdone⟩
    obtain ⟨-, hnot⟩ := List.mem_filter.mp ((hpending name).mp hwaits)
    exact (of_decide_eq_true hnot).2 ((h.isDone_iff name).mp hdone)
  · rw [← h.queued]
    exact work.distinct

end Reflects

/-! ## What lasts -/

/-- A name that was made done never waits again. -/
theorem not_mem_waiting_append {history : History} {name : String} (h : name ∈ history.finished)
    (more : History) : name ∉ History.waiting (history ++ more) := by
  intro hwaits
  obtain ⟨-, hnot⟩ := List.mem_filter.mp hwaits
  refine (of_decide_eq_true hnot).2 ?_
  rw [History.finished, List.flatMap_append]
  exact List.mem_append_left _ h

/-- Whatever orders a worklist is given, it is a queue of distinct names: it puts in line the names
that never were and are not done, hands them out in the order of the line, each once, and all its
views show the names waiting. Whatever more it is told, what is done never waits again, and who asked
for a name first stays. -/
theorem firstInFirstOut (orders more : List Order) :
    let before := empty.carryOut orders
    let later := before.2.carryOut more
    Queue before.1 before.2 ∧
      (∀ name ∈ before.1.finished, later.2.isPending name = false) ∧
      ∀ name requester, before.2.requester? name = some requester →
        later.2.requester? name = some requester := by
  have hbefore := Reflects.empty.carryOut orders
  rw [List.nil_append] at hbefore
  have hlater := hbefore.carryOut more
  refine ⟨hbefore.queue, fun name hn => ?_, fun name requester hr => ?_⟩
  · rw [Bool.eq_false_iff, ne_eq, hlater.queue.isPending]
    exact not_mem_waiting_append hn _
  · rw [hbefore.requester] at hr
    rw [hlater.requester, requester?_append, hr, Option.some_or]

end CopySynth.Worklist
