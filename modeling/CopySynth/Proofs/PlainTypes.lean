import CopySynth.Classification
import CopySynth.Proofs.Trails

/-!
# What the classifier looks for

`Plain` and `Storing` describe the types that are value types and those that are found to be none,
without a path or a memory. A type may be neither when its parts are missing or lead back to it.
`judge` answers for one type with a path but without a memory; its answers are those of the two
descriptions, wherever on a walk it is asked.
-/

namespace CopySynth.Table

/-- A value type: it owns no storage, and all it holds in place are value types. -/
inductive Plain (table : Table) : String → Prop
  | intro {name type} (hg : table.get? name = some type) (ho : type.ownsStorage = false)
      (hc : ∀ mention ∈ type.contained name, Plain table mention.name) : Plain table name

/-- A type that is found to be no value type: it owns storage itself, or its first part that is no
value type is found to be none. -/
inductive Storing (table : Table) : String → Prop
  | owner {name type} (hg : table.get? name = some type) (ho : type.ownsStorage = true) :
      Storing table name
  | part {name type before part after} (hg : table.get? name = some type)
      (ho : type.ownsStorage = false) (hc : type.contained name = before ++ part :: after)
      (hb : ∀ mention ∈ before, table.Plain mention.name) (hp : Storing table part.name) :
      Storing table name

/-- What it means for a type to be or not to be a value type. -/
def Classified (table : Table) (name : String) : Bool → Prop
  | true => table.Plain name
  | false => table.Storing name

/-- Work on a type comes to one of its parts when all parts before it are value types. -/
def Asks (table : Table) (name part : String) : Prop :=
  ∃ type before mention after, table.get? name = some type ∧ type.ownsStorage = false ∧
    type.contained name = before ++ mention :: after ∧
    (∀ earlier ∈ before, table.Plain earlier.name) ∧ mention.name = part

/-- Whether the type a mention names is a value type, answered without a memory. The types in
progress are on `path`. -/
def judge (table : Table) : Nat → List String → Mention → Except GenerationError Bool
  | 0, path, mention => .error (.cyclicType (closedPath path mention.name))
  | steps + 1, path, mention =>
    if mention.name ∈ path then .error (.cyclicType (closedPath path mention.name))
    else match table.get? mention.name with
      | none => .error (.unresolvedType mention.name mention.context)
      | some type =>
        if type.ownsStorage then .ok false
        else (type.contained mention.name).allM (table.judge steps (path ++ [mention.name]))

variable {table : Table} {name : String}

theorem Asks.holds {part : String} (h : table.Asks name part) : table.Holds name part := by
  obtain ⟨type, before, mention, after, hg, _, hc, _, rfl⟩ := h
  refine (holds_iff_of_get? hg).mpr ?_
  rw [Definition.containedNames, hc]
  exact List.mem_map_of_mem (by simp)

/-- What a value type is made of. -/
theorem Plain.of_get? {type : Definition} (h : table.Plain name)
    (hg : table.get? name = some type) :
    type.ownsStorage = false ∧ ∀ mention ∈ type.contained name, table.Plain mention.name := by
  obtain ⟨hg', ho, hc⟩ := h
  cases hg.symm.trans hg'
  exact ⟨ho, hc⟩

theorem Storing.not_plain (h : table.Storing name) : ¬ table.Plain name := by
  induction h with
  | owner hg ho =>
    intro hp
    cases ho.symm.trans (hp.of_get? hg).1
  | part hg _ hc _ _ ih => exact fun hp => ih ((hp.of_get? hg).2 _ (hc ▸ by simp))

/-! ## Work on a type that can be settled never comes back to it -/

theorem not_transGen_of_parts
    (h : ∀ part, table.Asks name part → ¬ Relation.TransGen table.Asks part part) :
    ¬ Relation.TransGen table.Asks name name := by
  intro hr
  obtain ⟨part, ha, hr⟩ := Relation.TransGen.head'_iff.mp hr
  exact h part ha (Relation.TransGen.tail' hr ha)

theorem Plain.not_transGen (h : table.Plain name) : ¬ Relation.TransGen table.Asks name name := by
  induction h with
  | @intro name type hg _ _ ih =>
    refine not_transGen_of_parts ?_
    rintro _ ⟨type', before, mention, after, hg', _, hc, _, rfl⟩
    cases hg.symm.trans hg'
    exact ih mention (hc ▸ by simp)

theorem Storing.not_transGen (h : table.Storing name) :
    ¬ Relation.TransGen table.Asks name name := by
  induction h with
  | owner hg ho =>
    refine not_transGen_of_parts ?_
    rintro _ ⟨type', _, _, _, hg', ho', _, _, rfl⟩
    cases hg.symm.trans hg'
    cases ho.symm.trans ho'
  | @part name type before part after hg _ hc hb hp ih =>
    refine not_transGen_of_parts ?_
    rintro _ ⟨type', before', mention, after', hg', _, hc', hb', rfl⟩
    cases hg.symm.trans hg'
    -- work stops at the part that owns storage, so it came to this part or to one before it
    rcases List.append_eq_append_iff.mp (hc.symm.trans hc') with
      ⟨more, rfl, hmore⟩ | ⟨more, rfl, hmore⟩
    · cases more with
      | nil =>
        cases hmore
        exact ih
      | cons first more =>
        cases hmore
        exact absurd (hb' part (by simp)) hp.not_plain
    · cases more with
      | nil =>
        cases hmore
        exact ih
      | cons first more =>
        cases hmore
        exact (hb mention (by simp)).not_transGen

/-! ## Answers without a memory -/

/-- An answer about a type describes it. -/
theorem classified_of_judge {steps : Nat} {path : List String} {mention : Mention} {value : Bool}
    (h : table.judge steps path mention = .ok value) : table.Classified mention.name value := by
  induction steps generalizing path mention value with
  | zero => cases h
  | succ steps ih =>
    rw [judge] at h
    split at h
    · cases h
    cases hg : table.get? mention.name with
    | none => simp [hg] at h
    | some type =>
      simp only [hg] at h
      split at h
      · rename_i ho
        cases h
        exact .owner hg ho
      · rename_i ho
        have ho : type.ownsStorage = false := by simpa using ho
        cases value with
        | true => exact .intro hg ho fun part hp => ih (allM_eq_ok_true_iff.mp h part hp)
        | false =>
          obtain ⟨before, part, after, hc, hb, hp⟩ := allM_eq_ok_false_iff.mp h
          exact .part hg ho hc (fun earlier he => ih (hb earlier he)) (ih hp)

/-- Work goes on to a part whose earlier parts are value types. -/
theorem Trail.toPart {steps : Nat} {path : List String}
    (ht : table.Trail table.Asks (steps + 1) path name) (hn : name ∉ path) {type : Definition}
    (hg : table.get? name = some type)
    (ho : type.ownsStorage = false) {before after : List Mention} {part : Mention}
    (hc : type.contained name = before ++ part :: after)
    (hb : ∀ earlier ∈ before, table.Plain earlier.name) :
    table.Trail table.Asks steps (path ++ [name]) part.name :=
  ht.extend hn ⟨type, before, part, after, hg, ho, hc, hb, rfl⟩

theorem judge_of_plain {steps : Nat} {path : List String} {context : String}
    (h : table.Plain name) (ht : table.Trail table.Asks steps path name) :
    table.judge steps path ⟨name, context⟩ = .ok true := by
  induction h generalizing steps path context with
  | @intro name type hg ho hc ih =>
    obtain ⟨steps, rfl⟩ := ht.exists_steps fun _ _ ha => ha.holds.mem_names
    have hn : name ∉ path := fun hn => (Plain.intro hg ho hc).not_transGen (ht.reaches hn)
    rw [judge, if_neg hn, hg]
    simp only [ho, Bool.false_eq_true, if_false, allM_eq_ok_true_iff]
    intro part hp
    obtain ⟨before, after, hsplit⟩ := List.append_of_mem hp
    exact ih part hp
      (ht.toPart hn hg ho hsplit fun earlier he => hc earlier (hsplit ▸ by simp [he]))

theorem judge_of_storing {steps : Nat} {path : List String} {context : String}
    (h : table.Storing name) (ht : table.Trail table.Asks steps path name) :
    table.judge steps path ⟨name, context⟩ = .ok false := by
  induction h generalizing steps path context with
  | @owner name type hg ho =>
    obtain ⟨steps, rfl⟩ := ht.exists_steps fun _ _ ha => ha.holds.mem_names
    have hn : name ∉ path := fun hn => (Storing.owner hg ho).not_transGen (ht.reaches hn)
    rw [judge, if_neg hn, hg]
    simp only [ho, if_true]
  | @part name type before part after hg ho hc hb hp ih =>
    obtain ⟨steps, rfl⟩ := ht.exists_steps fun _ _ ha => ha.holds.mem_names
    have hn : name ∉ path := fun hn => (Storing.part hg ho hc hb hp).not_transGen (ht.reaches hn)
    rw [judge, if_neg hn, hg]
    simp only [ho, Bool.false_eq_true, if_false, allM_eq_ok_false_iff]
    refine ⟨before, part, after, hc, fun earlier he => ?_, ih (ht.toPart hn hg ho hc hb)⟩
    obtain ⟨first, last, rfl⟩ := List.append_of_mem he
    rw [List.append_assoc, List.cons_append] at hc
    exact judge_of_plain (hb earlier (by simp))
      (ht.toPart hn hg ho hc fun other h => hb other (by simp [h]))

/-- What describes a type is the answer about it, wherever on a walk it is asked. -/
theorem judge_of_classified {steps : Nat} {path : List String} {context : String} {value : Bool}
    (h : table.Classified name value) (ht : table.Trail table.Asks steps path name) :
    table.judge steps path ⟨name, context⟩ = .ok value := by
  cases value with
  | true => exact judge_of_plain h ht
  | false => exact judge_of_storing h ht

end CopySynth.Table
