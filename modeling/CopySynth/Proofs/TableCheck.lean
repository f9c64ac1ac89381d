import CopySynth.Proofs.Containment
import CopySynth.Proofs.Lists
import CopySynth.Proofs.Trails
import CopySynth.Reader.Language

/-!
# What the check of a table decides

The check finds a name that is used and not defined whenever there is one, and a type that holds
itself whenever there is one; the path it reports is a circle of the table. A table with neither,
whose names can be written out, passes.
-/

namespace CopySynth.Table

variable {table : Table} {language : Code.Language}

/-! ## Layers have no circles -/

/-- What a listed type holds, directly or through others, is listed. -/
theorem Layered.mem_of_transGen {names : List String} (h : table.Layered names) {name part : String}
    (hn : name ∈ names) (hr : Relation.TransGen table.Holds name part) : part ∈ names := by
  have step : ∀ {a b}, a ∈ names → table.Holds a b → b ∈ names := by
    intro a b ha hh
    obtain ⟨type, hg, hc⟩ := h.get? ha
    exact hc b ((holds_iff_of_get? hg).mp hh)
  induction hr with
  | single hh => exact step hn hh
  | tail _ hh ih => exact step ih hh

theorem Layered.not_transGen {names : List String} (h : table.Layered names) {name : String}
    (hn : name ∈ names) : ¬ Relation.TransGen table.Holds name name := by
  induction h with
  | nil => exact absurd hn List.not_mem_nil
  | @cons first type rest hg hfirst hc hrest ih =>
    rcases List.mem_cons.mp hn with rfl | hn
    · intro hr
      obtain ⟨part, hh, hr⟩ := Relation.TransGen.head'_iff.mp hr
      have hpart : part ∈ rest := hc part ((holds_iff_of_get? hg).mp hh)
      -- the way back would lead from what stands below the type to the type itself
      rcases Relation.reflTransGen_iff_eq_or_transGen.mp hr with rfl | hr
      · exact hfirst hpart
      · exact hfirst (hrest.mem_of_transGen hpart hr)
    · exact ih hn

/-- From a listed type the way down to held types ends. -/
theorem Layered.acc {names : List String} (h : table.Layered names) {name : String}
    (hn : name ∈ names) : Acc (fun part owner => table.Holds owner part) name := by
  induction h generalizing name with
  | nil => exact absurd hn List.not_mem_nil
  | @cons first type rest hg _ hc _ ih =>
    rcases List.mem_cons.mp hn with rfl | hn
    · exact .intro name fun part hh => ih (hc part ((holds_iff_of_get? hg).mp hh))
    · exact ih hn

/-! ## The walk that looks for circles -/

/-- A visit fails only at a circle, which it reports. -/
theorem circle_of_visit (hc : table.Closed) {steps : Nat} {path finished : List String}
    {name : String} {fault : SchemaError} (ht : table.Trail table.Holds steps path name)
    (hn : name ∈ table.names) (h : table.visit steps path finished name = .error fault) :
    ∃ circle, fault = .circularReference circle ∧ table.Circle circle := by
  induction steps generalizing path finished name with
  | zero =>
    obtain ⟨_, hsteps⟩ := ht.exists_steps fun _ _ hh => hh.mem_names
    cases hsteps
  | succ steps ih =>
    rw [visit] at h
    split at h
    · cases h
    split at h
    · rename_i hp
      cases h
      exact ⟨_, rfl, ht.circle hp⟩
    rename_i hp
    obtain ⟨type, hg⟩ := Option.isSome_iff_exists.mp ((get?_isSome_iff table name).mpr hn)
    rw [hg] at h
    cases hi : (type.containedNames name).foldlM (table.visit steps (path ++ [name])) finished with
    | ok inside =>
      simp only [hi] at h
      cases h
    | error inner =>
      simp only [hi] at h
      cases h
      obtain ⟨part, hpart, _, hv⟩ := exists_of_foldlM_eq_error hi
      have hh : table.Holds name part := (holds_iff_of_get? hg).mpr hpart
      exact ih (ht.extend hp hh) (hc.of_holds hh) hv

theorem circle_of_checkContainment (hc : table.Closed) {fault : SchemaError}
    (h : table.checkContainment = .error fault) :
    ∃ circle, fault = .circularReference circle ∧ table.Circle circle := by
  obtain ⟨name, hn, _, hv⟩ := exists_of_foldlM_eq_error h
  exact circle_of_visit hc (.start name) hn hv

/-! ## The answers of the check -/

theorem mem_of_firstDangling {mention : Mention} (h : table.firstDangling = some mention) :
    (∃ owner type, (owner, type) ∈ table.entries ∧ mention ∈ type.references owner) ∧
      mention.name ∉ table.names := by
  have hm := List.mem_of_find?_eq_some h
  have hd := List.find?_some h
  obtain ⟨⟨owner, type⟩, he, hm⟩ := List.mem_flatMap.mp hm
  refine ⟨⟨owner, type, he, hm⟩, fun hn => ?_⟩
  rw [(contains_iff table mention.name).mpr hn] at hd
  cases hd

theorem firstDangling_eq_none_iff : table.firstDangling = none ↔ table.Closed := by
  rw [firstDangling, List.find?_eq_none]
  constructor
  · intro h owner type name hg hu
    obtain ⟨mention, hm, rfl⟩ := List.mem_map.mp ((type.uses_iff owner name).mp hu)
    have := h mention (List.mem_flatMap.mpr ⟨(owner, type), get?_eq_some_iff.mp hg, hm⟩)
    rw [← contains_iff]
    simpa using this
  · intro h mention hm
    obtain ⟨⟨owner, type⟩, he, hm⟩ := List.mem_flatMap.mp hm
    have hu := (type.uses_iff owner mention.name).mpr (List.mem_map_of_mem hm)
    simpa using (contains_iff _ _).mpr (h owner type mention.name (get?_eq_some_iff.mpr he) hu)

theorem firstMisnamed_eq_none_iff :
    table.firstMisnamed language = none ↔
      ∀ name ∈ table.identifierNames, language.isIdentifier name := by
  simp [firstMisnamed]

/-- For a closed table whose names can be written out, the search for circles is all that is
left. -/
theorem validate_eq_checkContainment (hc : table.Closed) (hi : table.firstMisnamed language = none) :
    table.validate language = table.checkContainment.map fun _ => () := by
  rw [validate, firstDangling_eq_none_iff.mpr hc, hi]

theorem acyclic_of_checkContainment {names : List String}
    (h : table.checkContainment = .ok names) : table.Acyclic := by
  obtain ⟨he, hall⟩ := extended_of_foldlM
    (fun finished name result hl hv => extended_of_visit hl hv) .nil h
  intro name hr
  obtain ⟨part, hh, _⟩ := Relation.TransGen.head'_iff.mp hr
  exact he.layered.not_transGen (hall name hh.mem_names) hr

theorem exists_checkContainment (hc : table.Closed) (ha : table.Acyclic) :
    ∃ names, table.checkContainment = .ok names := by
  cases h : table.checkContainment with
  | ok names => exact ⟨names, rfl⟩
  | error fault =>
    obtain ⟨circle, _, hcircle⟩ := circle_of_checkContainment hc h
    obtain ⟨name, hr⟩ := hcircle.transGen
    exact absurd hr (ha name)

/-- What it takes to pass the check. -/
theorem validate_eq_ok_iff :
    table.validate language = .ok () ↔
      table.Closed ∧ table.firstMisnamed language = none ∧ table.Acyclic := by
  constructor
  · intro h
    have hd : table.firstDangling = none := by
      cases hd : table.firstDangling with
      | none => rfl
      | some mention => simp [validate, hd] at h
    have hi : table.firstMisnamed language = none := by
      cases hi : table.firstMisnamed language with
      | none => rfl
      | some name => simp [validate, hd, hi] at h
    have hc := firstDangling_eq_none_iff.mp hd
    rw [validate_eq_checkContainment hc hi] at h
    cases hn : table.checkContainment with
    | error fault =>
      rw [hn] at h
      cases h
    | ok names => exact ⟨hc, hi, acyclic_of_checkContainment hn⟩
  · rintro ⟨hc, hi, ha⟩
    obtain ⟨names, hn⟩ := exists_checkContainment hc ha
    rw [validate_eq_checkContainment hc hi, hn]
    rfl

/-- In a table that passes its check every way down to held types ends. -/
theorem wellFounded_holds (h : table.validate language = .ok ()) :
    WellFounded fun part owner => table.Holds owner part := by
  obtain ⟨names, hl, hall, _⟩ := layered_of_validate h
  constructor
  intro name
  constructor
  intro part hh
  exact hl.acc ((hall part).mpr ((validate_eq_ok_iff.mp h).1.of_holds hh))

/-- A name is reported as not found only by the first question, the one for dangling names. -/
theorem validate_eq_typeNotFound_iff {name context : String} :
    table.validate language = .error (.typeNotFound name context) ↔
      table.firstDangling = some ⟨name, context⟩ := by
  constructor
  · intro h
    cases hd : table.firstDangling with
    | some mention =>
      simp only [validate, hd, Except.error.injEq, SchemaError.typeNotFound.injEq] at h
      rw [← h.1, ← h.2]
    | none =>
      cases hi : table.firstMisnamed language with
      | some other => simp [validate, hd, hi] at h
      | none =>
        have hc := firstDangling_eq_none_iff.mp hd
        rw [validate_eq_checkContainment hc hi] at h
        cases hn : table.checkContainment with
        | ok names =>
          rw [hn] at h
          cases h
        | error fault =>
          obtain ⟨circle, rfl, _⟩ := circle_of_checkContainment hc hn
          rw [hn] at h
          cases h
  · intro h
    rw [validate, h]

/-- A table that is not refused for one of its names passes, or its fault is a circle. -/
theorem validate_cases (hc : table.Closed) (hi : table.firstMisnamed language = none) :
    (table.validate language = .ok () ∧ table.Acyclic) ∨
      ∃ circle, table.validate language = .error (.circularReference circle) ∧
        table.Circle circle := by
  cases hn : table.checkContainment with
  | ok names =>
    have ha := acyclic_of_checkContainment hn
    exact .inl ⟨validate_eq_ok_iff.mpr ⟨hc, hi, ha⟩, ha⟩
  | error fault =>
    obtain ⟨circle, rfl, hcircle⟩ := circle_of_checkContainment hc hn
    rw [validate_eq_checkContainment hc hi, hn]
    exact .inr ⟨circle, rfl, hcircle⟩

/-- A path that the check reports is a circle of the table. -/
theorem circle_of_validate {path : List String}
    (h : table.validate language = .error (.circularReference path)) : table.Circle path := by
  cases hd : table.firstDangling with
  | some mention => simp [validate, hd] at h
  | none =>
    cases hi : table.firstMisnamed language with
    | some name => simp [validate, hd, hi] at h
    | none =>
      obtain ⟨hok, _⟩ | ⟨circle, hfault, hcircle⟩ :=
        validate_cases (firstDangling_eq_none_iff.mp hd) hi
      · rw [hok] at h
        cases h
      · rw [hfault] at h
        cases h
        exact hcircle

/-- The check reports a name as not found exactly when some name is used and not defined, and then
such a name. A path that it reports is a circle. When all names are defined and can be written out,
it reports a path exactly when some type holds itself; otherwise the table passes. -/
theorem validate_decides (table : Table) (language : Code.Language) :
    ((∃ name context, table.validate language = .error (.typeNotFound name context)) ↔
      ∃ owner type name, (owner, type) ∈ table.entries ∧ type.Uses name ∧ name ∉ table.names) ∧
    (∀ name context, table.validate language = .error (.typeNotFound name context) →
      (∃ owner type, (owner, type) ∈ table.entries ∧ ⟨name, context⟩ ∈ type.references owner) ∧
        name ∉ table.names) ∧
    (∀ path, table.validate language = .error (.circularReference path) → table.Circle path) ∧
    (table.Closed → table.firstMisnamed language = none →
      ((∃ path, table.validate language = .error (.circularReference path)) ↔
        ∃ name, Relation.TransGen table.Holds name name) ∧
      ((∀ name, ¬ Relation.TransGen table.Holds name name) → table.validate language = .ok ())) := by
  have hreported : ∀ name context, table.validate language = .error (.typeNotFound name context) →
      (∃ owner type, (owner, type) ∈ table.entries ∧ ⟨name, context⟩ ∈ type.references owner) ∧
        name ∉ table.names :=
    fun name context h => mem_of_firstDangling (validate_eq_typeNotFound_iff.mp h)
  refine ⟨⟨?_, ?_⟩, hreported, fun path h => circle_of_validate h, fun hc hi => ?_⟩
  · rintro ⟨name, context, h⟩
    obtain ⟨⟨owner, type, he, hm⟩, hn⟩ := hreported name context h
    exact ⟨owner, type, name, he, (type.uses_iff owner name).mpr (List.mem_map_of_mem hm), hn⟩
  · rintro ⟨owner, type, name, he, hu, hn⟩
    cases hd : table.firstDangling with
    | none => exact absurd (firstDangling_eq_none_iff.mp hd owner type name
        (get?_eq_some_iff.mpr he) hu) hn
    | some mention => exact ⟨_, _, validate_eq_typeNotFound_iff.mpr hd⟩
  · rcases validate_cases hc hi with ⟨hok, ha⟩ | ⟨circle, hfault, hcircle⟩
    · refine ⟨⟨fun ⟨path, h⟩ => ?_, fun ⟨name, hr⟩ => absurd hr (ha name)⟩, fun _ => hok⟩
      rw [hok] at h
      cases h
    · obtain ⟨name, hr⟩ := hcircle.transGen
      exact ⟨⟨fun _ => ⟨name, hr⟩, fun _ => ⟨circle, hfault⟩⟩, fun ha => absurd hr (ha name)⟩

/-- A record that leads into a loop of an alias and a sequence. -/
def loop : Table where
  entries := [("Start", .type (.record [("inner", .inline [("first", .named "Left")])])),
    ("Left", .aliasOf "Right"), ("Right", .type (.fixed 2 (.inline [("back", .named "Left")])))]
  distinct_names := by decide
  distinct_fields := by
    simp [Definition.Distinct, Shape.Distinct, Ref.FieldsDistinct, Ref.Distinct]

/-- The way that leads into the loop is no part of the reported circle. -/
theorem validate_loop :
    loop.validate Reader.language = .error (.circularReference ["Left", "Right", "Left"]) ∧
      loop.Circle ["Left", "Right", "Left"] ∧
      ∃ name, Relation.TransGen loop.Holds name name := by
  have hc : loop.Closed := firstDangling_eq_none_iff.mp (by decide +kernel)
  have hv : loop.validate Reader.language =
      .error (.circularReference ["Left", "Right", "Left"]) := by
    decide +kernel
  obtain ⟨_, _, hcircle, hcheck⟩ := validate_decides loop Reader.language
  obtain ⟨hiff, _⟩ := hcheck hc (by decide +kernel)
  exact ⟨hv, hcircle _ hv, hiff.mp ⟨_, hv⟩⟩

end CopySynth.Table
