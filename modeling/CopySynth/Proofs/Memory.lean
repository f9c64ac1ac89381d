import CopySynth.Proofs.PlainTypes

/-!
# The memory of a classifier

A classifier that remembers only what is so answers as if it remembered nothing, fault for fault,
and ends its work where it began. So it does not matter what it was asked before.
-/

namespace CopySynth.Table

/-- All that is remembered is so. -/
def SoundMemory (table : Table) (classifier : Classifier) : Prop :=
  ∀ name value, classifier.answer? name = some value → table.Classified name value

/-- Whatever a classifier rightly remembers, at this point of its work it gives this answer to a
question, and is at the same point again. -/
def Answers (table : Table) (path : List String) (question : Classify Bool)
    (answer : Except GenerationError Bool) : Prop :=
  ∀ classifier, table.SoundMemory classifier → classifier.inProgress = path →
    ∃ after, question.run classifier = (answer, after) ∧ table.SoundMemory after ∧
      after.inProgress = path

variable {table : Table} {path : List String}

theorem run_bind {α β : Type} (first : Classify α) (second : α → Classify β)
    (classifier : Classifier) :
    (first >>= second).run classifier =
      match first.run classifier with
      | (.ok a, after) => (second a).run after
      | (.error fault, after) => (.error fault, after) := by
  simp only [ExceptT.run, bind, ExceptT.bind, ExceptT.mk, StateT.bind, ExceptT.bindCont]
  cases (first : StateM Classifier (Except GenerationError α)) classifier with
  | mk answer after => cases answer <;> rfl

theorem SoundMemory.settle {classifier : Classifier} (h : table.SoundMemory classifier)
    {name : String} {value : Bool} (hc : table.Classified name value) :
    table.SoundMemory (classifier.settle name value) := by
  intro other found hf
  have hl : List.lookup other ((name, value) :: classifier.known) = some found := hf
  rw [List.lookup_cons] at hl
  split at hl
  · rename_i heq
    cases hl
    rw [eq_of_beq heq]
    exact hc
  · exact h other found hl

/-- Questions about one mention after the other, each asked only after positive answers to those
before it. -/
theorem Answers.allM {question : Mention → Classify Bool}
    {answer : Mention → Except GenerationError Bool} {mentions : List Mention}
    (h : ∀ before mention after, mentions = before ++ mention :: after →
      (∀ earlier ∈ before, answer earlier = .ok true) →
        table.Answers path (question mention) (answer mention)) :
    table.Answers path (mentions.allM question) (mentions.allM answer) := by
  induction mentions with
  | nil => exact fun classifier hs hp => ⟨classifier, rfl, hs, hp⟩
  | cons mention mentions ih =>
    intro classifier hs hp
    obtain ⟨after, hrun, hs', hp'⟩ := h [] mention mentions rfl (by simp) classifier hs hp
    rw [List.allM, run_bind, hrun]
    cases ha : answer mention with
    | error fault => exact ⟨after, by rw [allM_cons_error ha], hs', hp'⟩
    | ok value =>
      rw [allM_cons_ok ha]
      cases value with
      | false => exact ⟨after, rfl, hs', hp'⟩
      | true =>
        refine ih (fun before other rest hsplit hb => ?_) after hs' hp'
        exact h (mention :: before) other rest (by rw [hsplit, List.cons_append])
          (List.forall_mem_cons.mpr ⟨ha, hb⟩)

theorem run_finally (question : Classify Bool) (cleanup : Classifier → Classifier)
    (classifier : Classifier) :
    (tryFinally question (modify cleanup) : Classify Bool).run classifier =
      ((question.run classifier).1, cleanup (question.run classifier).2) := by
  rcases h : question.run classifier with ⟨answer, after⟩
  have h : question classifier = (answer, after) := h
  simp only [tryFinally, tryFinally', ExceptT.run, ExceptT.mk, bind, Functor.map, ExceptT.map,
    StateT.bind, pure]
  rw [h]
  cases answer <;> rfl

/-- Work on a type: it is in progress while a question about its parts is asked, whether that fails
or not, and is settled when it does not. -/
theorem run_work (name : String) (question : Classify Bool) (classifier : Classifier) :
    (do
      modify (Classifier.enter name)
      let settled ← try question finally modify Classifier.leave
      modify (Classifier.settle name settled)
      return settled : Classify Bool).run classifier =
      match question.run (classifier.enter name) with
      | (.ok value, after) => (.ok value, after.leave.settle name value)
      | (.error fault, after) => (.error fault, after.leave) := by
  have hmodify (change : Classifier → Classifier) (before : Classifier) :
      (modify change : Classify PUnit).run before = (.ok ⟨⟩, change before) := rfl
  rw [run_bind, hmodify]
  dsimp only
  rw [run_bind, run_finally]
  rcases question.run (classifier.enter name) with ⟨_ | _, after⟩ <;> rfl

/-- On its way through the table a classifier gives the answer that it would give without its
memory. -/
theorem answers_classifyMention {steps : Nat} {mention : Mention}
    (ht : table.Trail table.Asks steps path mention.name) :
    table.Answers path (table.classifyMention steps mention) (table.judge steps path mention) := by
  induction steps generalizing path mention with
  | zero =>
    obtain ⟨_, h⟩ := ht.exists_steps fun _ _ ha => ha.holds.mem_names
    cases h
  | succ steps ih =>
    rintro classifier hs rfl
    have hget : (get : Classify Classifier).run classifier = (.ok classifier, classifier) := rfl
    rw [classifyMention, run_bind, hget]
    dsimp only
    cases hr : classifier.answer? mention.name with
    | some value =>
      -- what is remembered was found on another path, and is found on this one too
      have hjudge : table.judge (steps + 1) classifier.inProgress mention = .ok value :=
        judge_of_classified (hs _ _ hr) ht
      rw [hjudge]
      exact ⟨classifier, rfl, hs, rfl⟩
    | none =>
      dsimp only
      by_cases hn : mention.name ∈ classifier.inProgress
      · rw [judge, if_pos hn, if_pos hn]
        exact ⟨classifier, rfl, hs, rfl⟩
      rw [if_neg hn]
      cases hg : table.get? mention.name with
      | none =>
        rw [judge, if_neg hn, hg]
        exact ⟨classifier, rfl, hs, rfl⟩
      | some type =>
        dsimp only
        have hparts : table.Answers (classifier.inProgress ++ [mention.name])
            (if type.ownsStorage then pure false
              else (type.contained mention.name).allM (table.classifyMention steps))
            (table.judge (steps + 1) classifier.inProgress mention) := by
          rw [judge, if_neg hn, hg]
          dsimp only
          cases ho : type.ownsStorage with
          | true => exact fun inner hs hp => ⟨inner, rfl, hs, hp⟩
          | false =>
            refine .allM fun before part after hc hb => ih (ht.toPart hn hg ho hc ?_)
            exact fun earlier he => classified_of_judge (hb earlier he)
        obtain ⟨after, hrun, hs', hp⟩ := hparts (classifier.enter mention.name) hs rfl
        have hback : after.leave.inProgress = classifier.inProgress := by
          rw [Classifier.leave, hp, List.dropLast_concat]
        rw [run_work, hrun]
        cases ha : table.judge (steps + 1) classifier.inProgress mention with
        | error fault => exact ⟨after.leave, rfl, hs', hback⟩
        | ok value =>
          have hs' : table.SoundMemory after.leave := hs'
          exact ⟨_, rfl, hs'.settle (classified_of_judge ha), hback⟩

/-! ## Sequences of questions -/

theorem answers_classify (ref : Ref) (context : String) :
    table.Answers [] (table.classify ref context)
      ((ref.mentions context).allM (table.judge (table.size + 1) [])) :=
  .allM fun _ mention _ _ _ => answers_classifyMention (.start mention.name)

theorem soundMemory_empty : table.SoundMemory {} := by
  rintro name value ⟨⟩

theorem isValue_eq (ref : Ref) (context : String) :
    table.isValue ref context = (ref.mentions context).allM (table.judge (table.size + 1) []) := by
  obtain ⟨after, hrun, _⟩ := answers_classify ref context {} soundMemory_empty rfl
  rw [isValue, hrun]

/-- What the classifier takes for a value type is one. -/
theorem plain_of_isValue {ref : Ref} {context : String} (h : table.isValue ref context = .ok true) :
    ∀ mention ∈ ref.mentions context, table.Plain mention.name := by
  rw [isValue_eq, allM_eq_ok_true_iff] at h
  exact fun mention hm => classified_of_judge (h mention hm)

theorem isValueName_of_classified {name : String} {value : Bool}
    (h : table.Classified name value) (context : String) :
    table.isValueName name context = .ok value := by
  rw [isValueName, isValue_eq, Ref.mentions, allM_cons_ok (judge_of_classified h (.start name))]
  cases value <;> rfl

/-- A plain builtin is a value type, all others are none. -/
theorem isValueName_builtin {name : String} {type : Builtin} (context : String)
    (hg : table.get? name = some (.type (.builtin type))) :
    table.isValueName name context = .ok (!type.marker.ownsStorage) := by
  refine isValueName_of_classified ?_ context
  cases ho : type.marker.ownsStorage with
  | true => exact .owner hg ho
  | false => exact .intro hg ho fun _ hm => absurd hm List.not_mem_nil

/-- The classifier after it was asked about references, each in its context, one after the other. A
question about a name is one about the reference by that name. -/
def asked (table : Table) (questions : List (Ref × String)) : Classifier :=
  questions.foldl
    (fun classifier question => ((table.classify question.1 question.2).run classifier).2) {}

theorem asked_concat (questions : List (Ref × String)) (ref : Ref) (context : String) :
    table.asked (questions ++ [(ref, context)]) =
      ((table.classify ref context).run (table.asked questions)).2 := by
  rw [asked, List.foldl_append]
  rfl

/-- Between two questions a classifier remembers only what is so and is at work on nothing. -/
theorem soundMemory_asked (questions : List (Ref × String)) :
    table.SoundMemory (table.asked questions) ∧ (table.asked questions).inProgress = [] := by
  induction questions using List.reverseRecOn with
  | nil => exact ⟨soundMemory_empty, rfl⟩
  | append_singleton questions question ih =>
    obtain ⟨ref, context⟩ := question
    obtain ⟨after, hrun, hsound, hpath⟩ := answers_classify ref context _ ih.1 ih.2
    rw [asked_concat, hrun]
    exact ⟨hsound, hpath⟩

/-- Whatever a classifier was asked before, it answers as one that was asked nothing: with the same
truth value or with the same fault, its names and path included. -/
theorem classify_asked (questions : List (Ref × String)) (ref : Ref) (context : String) :
    ((table.classify ref context).run (table.asked questions)).1 = table.isValue ref context := by
  obtain ⟨hsound, hpath⟩ := table.soundMemory_asked questions
  obtain ⟨after, hrun, _⟩ := answers_classify ref context _ hsound hpath
  rw [hrun, isValue_eq]

end CopySynth.Table
