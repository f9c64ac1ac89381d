/-!
# Worklists

A worklist hands out names in the order in which they were first queued, each name at most once. It
keeps every name it has queued and moves a cursor over them, which passes the names that are done. A
name that is done never enters the queue again. For each name the worklist keeps who asked for it
first.
-/

namespace CopySynth

/-- Names waiting for their turn, with what is known of all names so far. -/
structure Worklist where
  /-- Names that were ever queued, oldest first. -/
  queued : List String := []
  /-- How many of them have come up. -/
  cursor : Nat := 0
  /-- Names that are done. -/
  done : List String := []
  /-- For a name, who asked for it first. -/
  requesters : List (String × String) := []
  /-- No name is queued twice. -/
  distinct : queued.Nodup := by exact List.nodup_nil
  /-- Only names that were queued come up. -/
  cursor_le : cursor ≤ queued.length := by exact Nat.zero_le _
  deriving DecidableEq, Repr

namespace Worklist

/-- The worklist nothing has happened to. -/
def empty : Worklist := {}

/-- Whether a name is done. -/
def isDone (work : Worklist) (name : String) : Bool := name ∈ work.done

/-- The names waiting, oldest first. -/
def pending (work : Worklist) : List String :=
  (work.queued.drop work.cursor).filter (· ∉ work.done)

/-- How many names are waiting. -/
def pendingLength (work : Worklist) : Nat := work.pending.length

/-- Whether no name is waiting. -/
def isEmpty (work : Worklist) : Bool := work.pending.head?.isNone

/-- Whether a name is waiting: it has a place in the queue that has not come up, and is not done. -/
def isPending (work : Worklist) (name : String) : Bool :=
  (work.queued.idxOf? name).any fun place => decide (work.cursor ≤ place) && !work.isDone name

/-- Who asked for a name first. -/
def requester? (work : Worklist) (name : String) : Option String :=
  List.lookup name work.requesters

/-- Whether queueing a name would put it in line. -/
def accepts (work : Worklist) (name : String) : Bool :=
  !work.isDone name && !decide (name ∈ work.queued)

theorem accepts_eq_true_iff (work : Worklist) (name : String) :
    work.accepts name = true ↔ name ∉ work.done ∧ name ∉ work.queued := by
  simp [accepts, isDone]

/-- Queues a name unless it is done or was queued before. -/
def push (work : Worklist) (name : String) : Worklist :=
  if accepted : work.accepts name = true then
    { work with
      queued := work.queued ++ [name]
      distinct := List.nodup_append.mpr ⟨work.distinct, by simp, fun other before _ here same =>
        ((work.accepts_eq_true_iff name).mp accepted).2
          (List.mem_singleton.mp here ▸ same ▸ before)⟩
      cursor_le := Nat.le_trans work.cursor_le (by simp) }
  else work

/-- Notes who asked for a name, if nobody did before and the name is not done. -/
def note (work : Worklist) (name requester : String) : Worklist :=
  if work.isDone name || (work.requester? name).isSome then work
  else { work with requesters := work.requesters ++ [(name, requester)] }

/-- Queues a name on behalf of another. -/
def require (work : Worklist) (name requester : String) : Worklist :=
  (work.note name requester).push name

/-- Queues names, in order, on behalf of another. -/
def requireAll (work : Worklist) (names : List String) (requester : String) : Worklist :=
  names.foldl (fun work name => work.require name requester) work

/-- The first of some names that is not done, and how many have come up with it when `cursor` had
before. -/
def advance (done : List String) (cursor : Nat) : List String → Option String × Nat
  | [] => (none, cursor)
  | name :: rest => if name ∈ done then advance done (cursor + 1) rest else (some name, cursor + 1)

theorem advance_le (done : List String) (cursor : Nat) (names : List String) :
    cursor ≤ (advance done cursor names).2 ∧
      (advance done cursor names).2 ≤ cursor + names.length := by
  induction names generalizing cursor with
  | nil => simp [advance]
  | cons name rest ih =>
    unfold advance
    split
    · have := ih (cursor + 1)
      simp only [List.length_cons]
      omega
    · simp

/-- The name whose turn it is, and how many will have come up with it. -/
def next (work : Worklist) : Option String × Nat :=
  advance work.done work.cursor (work.queued.drop work.cursor)

theorem next_le (work : Worklist) :
    work.cursor ≤ work.next.2 ∧ work.next.2 ≤ work.queued.length := by
  have moved := advance_le work.done work.cursor (work.queued.drop work.cursor)
  rw [List.length_drop, Nat.add_sub_cancel' work.cursor_le] at moved
  exact moved

/-- Moves on to the first name that is not done: hands it out, if there is one. -/
def pop (work : Worklist) : Option String × Worklist :=
  (work.next.1, { work with cursor := work.next.2, cursor_le := work.next_le.2 })

/-- The name whose turn it is, and the worklist without it. -/
def pop? (work : Worklist) : Option (String × Worklist) :=
  work.pop.1.map fun name => (name, work.pop.2)

/-- Makes a name done. -/
def markDone (work : Worklist) (name : String) : Worklist :=
  if work.isDone name then work else { work with done := name :: work.done }

/-! ## Orders to a worklist -/

/-- What a worklist can be told to do. -/
inductive Order where
  /-- To queue a name. -/
  | push (name : String)
  /-- To queue a name on behalf of another. -/
  | require (name requester : String)
  /-- To hand out the name whose turn it is. -/
  | pop
  /-- To make a name done. -/
  | markDone (name : String)
  deriving DecidableEq, Repr

/-- What a worklist answers. -/
inductive Reply where
  /-- Whether the name was put in line, or whether it is done now and was not before. -/
  | changed (answer : Bool)
  /-- The name handed out, if there was one. -/
  | handed (name : Option String)
  deriving DecidableEq, Repr

/-- Carries out an order. -/
def perform (work : Worklist) : Order → Reply × Worklist
  | .push name => (.changed (work.accepts name), work.push name)
  | .require name requester => (.changed (work.accepts name), work.require name requester)
  | .pop => (.handed work.pop.1, work.pop.2)
  | .markDone name => (.changed (!work.isDone name), work.markDone name)

/-! ## What the operations leave as it is, and what they change -/

@[simp] theorem done_push (work : Worklist) (name : String) :
    (work.push name).done = work.done := by
  unfold push
  split <;> rfl

theorem queued_push (work : Worklist) (name : String) :
    (work.push name).queued = work.queued ++ if work.accepts name then [name] else [] := by
  unfold push
  split <;> simp_all

theorem pending_push (work : Worklist) (name : String) :
    (work.push name).pending = work.pending ++ if work.accepts name then [name] else [] := by
  unfold push
  split
  case isTrue accepted =>
    have fresh := ((work.accepts_eq_true_iff name).mp accepted).1
    simp [pending, List.drop_append_of_le_length work.cursor_le, fresh]
  case isFalse => simp

@[simp] theorem queued_note (work : Worklist) (name requester : String) :
    (work.note name requester).queued = work.queued := by
  unfold note
  split <;> rfl

@[simp] theorem done_note (work : Worklist) (name requester : String) :
    (work.note name requester).done = work.done := by
  unfold note
  split <;> rfl

@[simp] theorem accepts_note (work : Worklist) (name requester other : String) :
    (work.note name requester).accepts other = work.accepts other := by
  simp [accepts, isDone]

@[simp] theorem pending_note (work : Worklist) (name requester : String) :
    (work.note name requester).pending = work.pending := by
  unfold note
  split <;> rfl

/-- Passing the names that are done hands out the first of the others and leaves those behind it. -/
theorem advance_eq (done : List String) (cursor : Nat) (names : List String) :
    (advance done cursor names).1 = (names.filter (· ∉ done)).head? ∧
      (names.drop ((advance done cursor names).2 - cursor)).filter (· ∉ done) =
        (names.filter (· ∉ done)).tail := by
  induction names generalizing cursor with
  | nil => simp [advance]
  | cons name rest ih =>
    unfold advance
    split
    case isTrue finished =>
      obtain ⟨handed, left⟩ := ih (cursor + 1)
      have moved := (advance_le done (cursor + 1) rest).1
      obtain ⟨more, passed⟩ : ∃ more, (advance done (cursor + 1) rest).2 - cursor = more + 1 :=
        ⟨(advance done (cursor + 1) rest).2 - (cursor + 1), by omega⟩
      have same : (advance done (cursor + 1) rest).2 - (cursor + 1) = more := by omega
      rw [same] at left
      simp only [passed, List.drop_succ_cons, left, handed]
      simp [finished]
    case isFalse waiting => simp [waiting]

theorem pop_eq (work : Worklist) :
    work.pop.1 = work.pending.head? ∧ work.pop.2.pending = work.pending.tail := by
  obtain ⟨handed, left⟩ := advance_eq work.done work.cursor (work.queued.drop work.cursor)
  refine ⟨handed, ?_⟩
  rw [List.drop_drop, Nat.add_sub_cancel' (by exact work.next_le.1)] at left
  exact left

@[simp] theorem queued_pop (work : Worklist) : work.pop.2.queued = work.queued := rfl

@[simp] theorem done_pop (work : Worklist) : work.pop.2.done = work.done := rfl

theorem pop?_eq_none_iff (work : Worklist) : work.pop? = none ↔ work.pending = [] := by
  rw [pop?, work.pop_eq.1, Option.map_eq_none_iff, List.head?_eq_none_iff]

/-- The name whose turn it is is the first of those waiting. -/
theorem pending_of_pop {work rest : Worklist} {name : String}
    (h : work.pop? = some (name, rest)) :
    rest = work.pop.2 ∧ work.pending = name :: rest.pending := by
  obtain ⟨_, here, same⟩ := Option.map_eq_some_iff.mp h
  cases same
  refine ⟨rfl, ?_⟩
  rw [work.pop_eq.1] at here
  obtain ⟨names, line⟩ := List.head?_eq_some_iff.mp here
  rw [work.pop_eq.2, line, List.tail_cons]

/-- The name whose turn it is was waiting. -/
theorem mem_pending_of_pop {work rest : Worklist} {name : String}
    (h : work.pop? = some (name, rest)) : name ∈ work.pending := by
  rw [(pending_of_pop h).2]
  exact List.mem_cons_self

theorem mem_done_markDone (work : Worklist) (name other : String) :
    other ∈ (work.markDone name).done ↔ other = name ∨ other ∈ work.done := by
  unfold markDone
  split
  case isTrue finished =>
    simp only [isDone, decide_eq_true_eq] at finished
    constructor
    · exact .inr
    · rintro (rfl | before)
      · exact finished
      · exact before
  case isFalse => simp

@[simp] theorem queued_markDone (work : Worklist) (name : String) :
    (work.markDone name).queued = work.queued := by
  unfold markDone
  split <;> rfl

/-- A name that is done leaves the line, wherever it stands. -/
theorem pending_markDone (work : Worklist) (name : String) :
    (work.markDone name).pending = work.pending.filter (· ≠ name) := by
  have hcursor : (work.markDone name).cursor = work.cursor := by
    unfold markDone
    split <;> rfl
  rw [pending, queued_markDone, hcursor, pending, List.filter_filter]
  refine List.filter_congr fun other _ => ?_
  simp [mem_done_markDone]

end Worklist

end CopySynth
