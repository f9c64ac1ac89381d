import CopySynth.Generation.Remembering
import CopySynth.Proofs.Memory
import CopySynth.Proofs.Turns

/-!
# What a classifier remembers does not matter

A step of a run that asks the classifier of the whole run has the result of the step that asks a
classifier of its own, and leaves a classifier of which the same can be said. So the run with one
classifier has the result of the run without, and each of its bodies is the one that is made when
nothing has been asked before.
-/

namespace CopySynth

/-! ## Methods as one chain of steps -/

namespace Table

theorem copyRequests_of_resolve {table : Table} {name owner : String} {shape : Shape}
    {body : CopyBody} (hr : table.resolve name "copy request" = .ok (owner, shape))
    (hb : table.copyBody name = .ok body) : table.copyRequests name = (owner, body.helpers) := by
  have hg := get?_of_resolve hr
  have hown : table.copyBody owner = .ok body := by
    rw [← hb, copyBody, copyBody, hr, resolve_of_get? _ hg]
  rw [← copyRequests_eq hg hown, copyRequests, copyRequests, hr, resolve_of_get? _ hg]

end Table

/-- The name on whose behalf a copy queues its helpers can be looked up again. -/
theorem Run.makeCopy_eq_of_resolve (run : Run) (table : Table) (family : Family) (name : String) :
    run.makeCopy table family name = do
      let body ← table.copyBody name
      let (owner, _) ← lifted (table.resolve name "copy request")
      return { run with
        copies := run.copies.requireAll body.helpers owner
        output := if body = .trivial then run.output
          else run.output.addCopy name family body (family == .privateCopy) } := by
  rw [makeCopy_eq]
  cases hb : table.copyBody name with
  | error => rfl
  | ok body =>
    obtain ⟨⟨owner, shape⟩, hr, _⟩ := bind_eq_ok_iff.mp hb
    have hr := lifted_eq_ok_iff.mp hr
    simp only [Table.copyRequests_of_resolve hr hb, hr, lifted, ok_bind]

/-! ## Steps with one classifier -/

/-- Whatever a classifier rightly remembers between two questions, the step has this result, and
the classifier is between two questions again. -/
def Keeps {α : Type} (table : Table) (step : Classify α) (result : Except GenerationError α) :
    Prop :=
  ∀ classifier, table.SoundMemory classifier → classifier.inProgress = [] →
    ∃ after, step.run classifier = (result, after) ∧ table.SoundMemory after ∧
      after.inProgress = []

variable {table : Table} {language : Code.Language} {α β : Type}

namespace Keeps

theorem pure (a : α) : Keeps table (pure a) (.ok a) :=
  fun classifier hs hp => ⟨classifier, rfl, hs, hp⟩

theorem throw (fault : GenerationError) : Keeps table (throw fault : Classify α) (.error fault) :=
  fun classifier hs hp => ⟨classifier, rfl, hs, hp⟩

/-- A step that does not ask the classifier. -/
theorem lift (result : Except GenerationError α) :
    Keeps table (liftM result : Classify α) result :=
  fun classifier hs hp => ⟨classifier, rfl, hs, hp⟩

theorem bind {first : Classify α} {second : α → Classify β} {result : Except GenerationError α}
    {next : α → Except GenerationError β} (hf : Keeps table first result)
    (hs : ∀ a, Keeps table (second a) (next a)) :
    Keeps table (first >>= second) (result >>= next) := by
  intro classifier hsound hp
  obtain ⟨after, hrun, hsound, hp⟩ := hf classifier hsound hp
  rw [Table.run_bind, hrun]
  cases result with
  | error fault => exact ⟨after, rfl, hsound, hp⟩
  | ok a => exact hs a after hsound hp

theorem mapM {step : α → Classify β} {result : α → Except GenerationError β}
    (h : ∀ a, Keeps table (step a) (result a)) (xs : List α) :
    Keeps table (xs.mapM step) (xs.mapM result) := by
  induction xs with
  | nil => exact pure []
  | cons x xs ih =>
    rw [List.mapM_cons, List.mapM_cons]
    exact (h x).bind fun y => ih.bind fun ys => pure (y :: ys)

theorem foldlM {step : β → α → Classify β} {result : β → α → Except GenerationError β}
    (h : ∀ b a, Keeps table (step b a) (result b a)) (xs : List α) (b : β) :
    Keeps table (xs.foldlM step b) (xs.foldlM result b) := by
  induction xs generalizing b with
  | nil => exact pure b
  | cons x xs ih =>
    rw [List.foldlM_cons, List.foldlM_cons]
    exact (h b x).bind ih

theorem classify (ref : Ref) (context : String) :
    Keeps table (table.classify ref context) (table.isValue ref context) := by
  rw [Table.isValue_eq]
  exact Table.answers_classify ref context

end Keeps

namespace Remembering

/-! ## Bodies -/

theorem keeps_elementCopy (owner slot : String) (ref : Ref) :
    Keeps table (elementCopy table owner slot ref) (table.elementCopy owner slot ref) := by
  unfold elementCopy Table.elementCopy
  refine (Keeps.classify ref _).bind fun isValue => ?_
  cases isValue with
  | true => exact .pure _
  | false =>
    cases ref with
    | inline => exact .throw _
    | named target =>
      refine (Keeps.lift _).bind fun (canonical, shape) => ?_
      dsimp only
      split
      · exact .pure _
      · split <;> exact .pure _

theorem keeps_spelledCopy (owner : String) (shape : Shape) :
    Keeps table (spelledCopy table owner shape) (table.spelledCopy owner shape) := by
  cases shape with
  | builtin => exact .pure _
  | dynamic element | fixed _ element =>
    exact (keeps_elementCopy owner "element" element).bind fun _ => .pure _
  | record fields =>
    refine (Keeps.mapM (fun (field, ref) => ?_) fields).bind fun _ => .pure _
    exact (keeps_elementCopy owner field ref).bind fun _ => .pure _

theorem keeps_copyBody (name : String) :
    Keeps table (copyBody table name) (table.copyBody name) := by
  unfold copyBody Table.copyBody
  refine (Keeps.lift _).bind fun (owner, shape) => ?_
  dsimp only
  split
  · exact .throw _
  · split
    · exact .pure _
    · refine (Keeps.classify _ _).bind fun isValue => ?_
      cases isValue with
      | true => exact .pure _
      | false => exact keeps_spelledCopy owner shape

theorem keeps_zeroTest (owner context : String) (ref : Ref) :
    Keeps table (zeroTest table owner context ref) (table.zeroTest owner context ref) := by
  cases ref with
  | inline fields =>
    refine (Keeps.classify _ _).bind fun isValue => ?_
    cases isValue with
    | true => exact .pure _
    | false => exact .throw _
  | named target =>
    refine (Keeps.lift _).bind fun (canonical, shape) => ?_
    dsimp only
    cases shape.zeroLiteral? with
    | some literal => exact .pure _
    | none =>
      refine (Keeps.classify _ _).bind fun isValue => ?_
      cases isValue with
      | true => exact .pure _
      | false => cases shape <;> exact .pure _

theorem keeps_spelledZero (owner : String) (shape : Shape) :
    Keeps table (spelledZero table owner shape) (table.spelledZero owner shape) := by
  cases shape with
  | builtin => exact .throw _
  | dynamic => exact .pure _
  | fixed _ element =>
    exact (keeps_zeroTest owner (elementContext owner) element).bind fun _ => .pure _
  | record fields =>
    refine (Keeps.mapM (fun (field, ref) => ?_) fields).bind fun _ => .pure _
    exact (keeps_zeroTest owner _ ref).bind fun _ => .pure _

theorem keeps_zeroBody (name : String) :
    Keeps table (zeroBody table name) (table.zeroBody name) := by
  unfold zeroBody Table.zeroBody
  refine (Keeps.lift _).bind fun type => ?_
  cases type with
  | aliasOf => exact .pure _
  | type shape =>
    dsimp only
    split
    · refine (Keeps.classify _ _).bind fun isValue => ?_
      cases isValue with
      | true => exact .pure _
      | false => exact keeps_spelledZero name shape
    · exact keeps_spelledZero name shape

/-! ## The run -/

theorem keeps_makeCopy (run : Run) (family : Family) (name : String) :
    Keeps table (makeCopy table run family name) (run.makeCopy table family name) := by
  rw [Run.makeCopy_eq_of_resolve]
  refine (keeps_copyBody name).bind fun body => ?_
  exact (Keeps.lift _).bind fun _ => .pure _

theorem keeps_makeZero (run : Run) (name : String) :
    Keeps table (makeZero table run name) (run.makeZero table name) := by
  rw [Run.makeZero_eq]
  exact (keeps_zeroBody name).bind fun _ => .pure _

theorem keeps_make (run : Run) (family : Family) (name : String) :
    Keeps table (make table run family name) (run.make table family name) := by
  cases family with
  | zeroPredicate => exact keeps_makeZero run name
  | publicCopy | privateCopy => exact keeps_makeCopy run _ name

theorem keeps_addRoot (run : Run) (root : String) :
    Keeps table (addRoot table run root) (Run.addRoot table run root) := by
  unfold addRoot Run.addRoot
  refine (Keeps.lift _).bind fun (name, shape) => ?_
  dsimp only
  split
  · exact .pure _
  · refine (keeps_makeCopy _ _ _).bind fun copied => ?_
    split
    · exact .pure _
    · exact (keeps_makeZero copied name).bind fun _ => .pure _

theorem keeps_drain (family : Family) (budget turns made : Nat) (run : Run) :
    Keeps table (drain table family budget turns made run)
      (Run.drain table family budget turns made run) := by
  induction turns generalizing made run with
  | zero => exact .pure _
  | succ turns ih =>
    rw [drain, Run.drain]
    cases (run.work family).pop? with
    | none => exact .pure _
    | some head =>
      obtain ⟨name, rest⟩ := head
      refine (Keeps.lift _).bind fun type => ?_
      split
      · exact ih _ _
      · split
        · exact .throw _
        · exact (keeps_make _ family name).bind fun next => ih _ _

theorem keeps_synthesize (config : Config) (roots : List String) :
    Keeps table (synthesize table language config roots)
      (table.synthesize language config roots) := by
  have hrun : Keeps table
      (do
        let run ← (ascending roots).foldlM (addRoot table) {}
        let run ← drain table .privateCopy (config.budget table.size) (table.size + 1) 0 run
        let run ← drain table .zeroPredicate (config.budget table.size) (table.size + 1) 0
          (run.queueAll table)
        return run.output.markDiscovered run.requested)
      (table.makeMethods (config.budget table.size) (table.size + 1) roots) := by
    refine (Keeps.foldlM keeps_addRoot _ _).bind fun start => ?_
    refine (keeps_drain _ _ _ _ _).bind fun copied => ?_
    exact (keeps_drain _ _ _ _ _).bind fun final => .pure _
  unfold synthesize Table.synthesize Table.synthesizeWithin
  split
  · exact (Keeps.lift _).bind fun _ => hrun
  · exact hrun

/-- The run with one classifier has the result of the run without. -/
theorem synthesize_eq (table : Table) (language : Code.Language) (config : Config)
    (roots : List String) :
    ((synthesize table language config roots).run {}).1 =
      table.synthesize language config roots := by
  obtain ⟨after, hrun, _⟩ := keeps_synthesize config roots {} Table.soundMemory_empty rfl
  rw [hrun]

end Remembering

end CopySynth
