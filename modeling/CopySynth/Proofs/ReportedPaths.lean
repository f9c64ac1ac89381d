import CopySynth.Proofs.Faults
import CopySynth.Proofs.Memory
import CopySynth.Proofs.TableCheck

/-!
# Paths of faults

Three walks report a path when they come back to a name: the check of a table, the classifier, and
the walk along aliases. The first two cut off the way on which they came to the circle, so their
paths are circles of the table wherever they start. The walk along aliases reports the way as well:
its path is a circle only when it started on one. A run hands these paths on; in a table that passes
its check there are none.
-/

namespace CopySynth

/-- The path of names that a fault reports for a type that holds itself. -/
def GenerationError.cycle? : GenerationError → Option (List String)
  | .cyclicType path | .schema (.circularReference path) => some path
  | _ => none

theorem GenerationError.cycle?_ofSchema {cause : SchemaError} {path : List String}
    (h : (GenerationError.ofSchema cause).cycle? = some path) :
    cause = .circularReference path := by
  cases cause with
  | circularReference other =>
    cases h
    rfl
  | typeNotFound | duplicateDefinition | invalidIdentifier => cases h

namespace Table

variable {table : Table} {language : Code.Language} {name context : String} {path : List String}

/-! ## The walk along aliases -/

/-- A way from a name along held types into a circle, once around it. -/
structure Lasso (table : Table) (name : String) (path : List String) : Prop where
  start : path.head? = some name
  once : path.dropLast.Nodup
  linked : path.IsChain table.Holds
  closes : ∃ way circle, path = way ++ circle ∧ table.Circle circle

/-- A lasso is a circle when it starts on its circle. -/
theorem Lasso.circle_iff (h : table.Lasso name path) :
    table.Circle path ↔ path.getLast? = some name := by
  obtain ⟨rest, rfl⟩ := List.head?_eq_some_iff.mp h.start
  constructor
  · intro hcircle
    obtain ⟨first, inner, hpath⟩ := hcircle.closed
    cases hpath
    rw [← List.cons_append]
    exact List.getLast?_concat
  · intro hlast
    obtain ⟨way, circle, hpath, hcircle⟩ := h.closes
    obtain ⟨first, inner, rfl⟩ := hcircle.closed
    refine ⟨?_, h.once, h.linked⟩
    cases hrest : rest.getLast? with
    | none =>
      -- the circle alone has two places for names
      have hlength := congrArg List.length hpath
      rw [List.getLast?_eq_none_iff.mp hrest] at hlength
      simp only [List.length_append, List.length_cons, List.length_nil] at hlength
      omega
    | some last =>
      obtain ⟨inner, rfl⟩ := List.getLast?_eq_some_iff.mp hrest
      rw [← List.cons_append, List.getLast?_concat] at hlast
      cases hlast
      exact ⟨name, inner, rfl⟩

/-- A walk that comes back to its path has gone a lasso. -/
theorem Trail.lasso {steps : Nat} {passed : List String} {last : String}
    (h : table.Trail table.Holds steps passed last) (hl : last ∈ passed)
    (hs : (passed ++ [last]).head? = some name) : table.Lasso name (passed ++ [last]) := by
  refine ⟨hs, ?_, h.linked, ?_⟩
  · rw [List.dropLast_concat]
    exact h.once
  · exact ⟨_, closedPath passed last, List.takeWhile_append_dropWhile.symm, h.circle hl⟩

theorem lasso_of_resolveFrom {start : String} {steps : Nat} {passed : List String}
    (ht : table.Trail table.Holds steps passed name)
    (hs : (passed ++ [name]).head? = some start)
    (h : table.resolveFrom context steps passed name = .error (.circularReference path)) :
    table.Lasso start path := by
  induction steps generalizing passed name with
  | zero =>
    obtain ⟨_, hsteps⟩ := ht.exists_steps fun _ _ hh => hh.mem_names
    cases hsteps
  | succ steps ih =>
    rw [resolveFrom] at h
    cases hg : table.get? name with
    | none =>
      rw [hg] at h
      cases h
    | some type =>
      rw [hg] at h
      cases type with
      | type => cases h
      | aliasOf target =>
        dsimp only at h
        split at h
        · rename_i hn
          cases h
          exact ht.lasso hn hs
        · rename_i hn
          refine ih (ht.extend hn ⟨_, hg, .target⟩) ?_ h
          rw [List.head?_append, hs, Option.some_or]

theorem lasso_of_resolve (h : table.resolve name context = .error (.circularReference path)) :
    table.Lasso name path :=
  lasso_of_resolveFrom (.start name) rfl h

/-! ## The classifier -/

/-- The path of a fault, if it has one, is a circle. -/
def Circular (table : Table) (fault : GenerationError) : Prop :=
  ∀ path, fault.cycle? = some path → table.Circle path

theorem circular_judge {steps : Nat} {passed : List String} {mention : Mention}
    (ht : table.Trail table.Holds steps passed mention.name) :
    FailsOnly table.Circular (table.judge steps passed mention) := by
  induction steps generalizing passed mention with
  | zero =>
    obtain ⟨_, hsteps⟩ := ht.exists_steps fun _ _ hh => hh.mem_names
    cases hsteps
  | succ steps ih =>
    rw [judge]
    split
    · rename_i hn
      refine .error fun path h => ?_
      cases h
      exact ht.circle hn
    · rename_i hn
      split
      · exact .error fun path h => by cases h
      · rename_i type hg
        split
        · exact .ok false
        · exact .allM fun part hp =>
            ih (ht.extend hn ((holds_iff_of_get? hg).mpr (List.mem_map_of_mem hp)))

theorem circular_isValue (ref : Ref) (context : String) :
    FailsOnly table.Circular (table.isValue ref context) := by
  rw [isValue_eq]
  exact .allM fun mention _ => circular_judge (.start mention.name)

/-! ## Runs -/

/-- The path of a fault, if it has one, is a circle or was reported for a name that was followed
through aliases. -/
def Traceable (table : Table) (fault : GenerationError) : Prop :=
  ∀ path, fault.cycle? = some path → table.Circle path ∨
    ∃ name context, table.resolve name context = .error (.circularReference path)

theorem traceable_isValue (ref : Ref) (context : String) :
    FailsOnly table.Traceable (table.isValue ref context) :=
  fun fault h path hpath => .inl (circular_isValue ref context fault h path hpath)

theorem traceable_resolve (name context : String) :
    FailsOnly table.Traceable (lifted (table.resolve name context)) := by
  intro fault h path hpath
  cases hr : table.resolve name context with
  | ok found =>
    rw [hr] at h
    cases h
  | error cause =>
    rw [hr] at h
    cases h
    rw [GenerationError.cycle?_ofSchema hpath] at hr
    exact .inr ⟨name, context, hr⟩

theorem traceable_unsupported (type : String) (fault : ShapeFault) :
    table.Traceable (.unsupportedShape type fault) := by
  intro path h
  cases h

theorem traceable_unresolved (name context : String) :
    table.Traceable (.unresolvedType name context) := by
  intro path h
  cases h

theorem Fault.traceable {config : Config} {roots : List String} {fault : GenerationError}
    (h : table.Fault language config roots fault) : table.Traceable fault := by
  cases h with
  | check _ h =>
    intro path hpath
    rw [GenerationError.cycle?_ofSchema hpath] at h
    exact .inl (circle_of_validate h)
  | @request root _ _ h =>
    exact traceable_resolve root "root list" _ (by rw [h]; rfl)
  | copy _ h =>
    exact failsOnly_copyBody traceable_isValue traceable_resolve traceable_unsupported _ _ h
  | zero _ h =>
    exact failsOnly_zeroBody traceable_isValue traceable_resolve traceable_unsupported
      traceable_unresolved _ _ h

theorem traceable_of_outOfBudget {fault : GenerationError} (h : fault.outOfBudget = true) :
    table.Traceable fault := by
  intro path hpath
  cases fault with
  | cyclicType => cases h
  | schema cause => cases h
  | _ => cases hpath

theorem traceable_of_synthesize {config : Config} {roots : List String} {fault : GenerationError}
    (h : table.synthesize language config roots = .error fault) : table.Traceable fault := by
  rcases fault_or_outOfBudget h with hfault | ⟨hout, _⟩
  · exact hfault.traceable
  · exact traceable_of_outOfBudget hout

/-- No walk through an acyclic table comes back. -/
theorem Acyclic.cycle?_eq_none (h : table.Acyclic) {fault : GenerationError}
    (hf : table.Traceable fault) : fault.cycle? = none := by
  rw [Option.eq_none_iff_forall_ne_some]
  intro path hpath
  obtain ⟨circle, hcircle⟩ : ∃ circle, table.Circle circle := by
    rcases hf path hpath with hcircle | ⟨name, context, hr⟩
    · exact ⟨path, hcircle⟩
    · obtain ⟨_, circle, _, hcircle⟩ := (lasso_of_resolve hr).closes
      exact ⟨circle, hcircle⟩
  obtain ⟨name, hloop⟩ := hcircle.transGen
  exact h name hloop

/-- A run that checks its table first reports circles only. -/
theorem circle_of_synthesize {config : Config} {roots : List String} {fault : GenerationError}
    (hc : config.validate = true) (h : table.synthesize language config roots = .error fault)
    (hpath : fault.cycle? = some path) : table.Circle path := by
  cases hv : table.validate language with
  | error cause =>
    rw [synthesize, synthesizeWithin, if_pos hc, hv] at h
    cases h
    rw [GenerationError.cycle?_ofSchema hpath] at hv
    exact circle_of_validate hv
  | ok =>
    have hnone := (validate_eq_ok_iff.mp hv).2.2.cycle?_eq_none (traceable_of_synthesize h)
    rw [hnone] at hpath
    cases hpath

/-- The paths of the check and of a classifier, whatever it was asked before, are circles. The walk
along aliases reports a lasso, which is a circle exactly when it ends with the name that the walk
started from. The path of a run is a circle, or the run did not check its table and the path is one
of the walk along aliases. -/
theorem reported_paths (table : Table) (language : Code.Language) :
    (∀ path, table.validate language = .error (.circularReference path) → table.Circle path) ∧
    (∀ questions ref context fault path,
      ((table.classify ref context).run (table.asked questions)).1 = .error fault →
        fault.cycle? = some path → table.Circle path) ∧
    (∀ name context path, table.resolve name context = .error (.circularReference path) →
      table.Lasso name path ∧ (table.Circle path ↔ path.getLast? = some name)) ∧
    (∀ config roots fault path, table.synthesize language config roots = .error fault →
      fault.cycle? = some path →
        table.Circle path ∨ (config.validate = false ∧
          ∃ name context, table.resolve name context = .error (.circularReference path))) := by
  refine ⟨fun path h => circle_of_validate h, fun questions ref context fault path h hpath => ?_,
    fun name context path h => ?_, fun config roots fault path h hpath => ?_⟩
  · rw [classify_asked] at h
    exact circular_isValue ref context fault h path hpath
  · have hlasso := lasso_of_resolve h
    exact ⟨hlasso, hlasso.circle_iff⟩
  · cases hc : config.validate with
    | true => exact .inl (circle_of_synthesize hc h hpath)
    | false => exact (traceable_of_synthesize h path hpath).imp_right fun hr => ⟨rfl, hr⟩

/-- Two aliases of each other, an alias of one of them, and a record that an anonymous record in one
of its fields holds. -/
def detour : Table where
  entries := [("Start", .aliasOf "Left"), ("Left", .aliasOf "Right"), ("Right", .aliasOf "Left"),
    ("Outer", .type (.record [("knot", .named "Knot")])),
    ("Knot", .type (.record [("inner", .inline [("knot", .named "Knot")])]))]
  distinct_names := by decide
  distinct_fields := by
    simp [Definition.Distinct, Shape.Distinct, Ref.FieldsDistinct, Ref.Distinct]

theorem reported_paths_detour :
    (detour.validate Reader.language = .error (.circularReference ["Left", "Right", "Left"]) ∧
      detour.Circle ["Left", "Right", "Left"]) ∧
    (detour.isValue (.named "Outer") "test" = .error (.cyclicType ["Knot", "Knot"]) ∧
      detour.Circle ["Knot", "Knot"]) ∧
    (detour.resolve "Right" "test" = .error (.circularReference ["Right", "Left", "Right"]) ∧
      detour.Circle ["Right", "Left", "Right"]) ∧
    ∃ fault, detour.synthesize Reader.language {} ["Outer"] = .error fault ∧
      ∃ path, fault.cycle? = some path ∧ detour.Circle path := by
  obtain ⟨hcheck, hasked, hresolved, hruns⟩ := reported_paths detour Reader.language
  have hv : detour.validate Reader.language =
      .error (.circularReference ["Left", "Right", "Left"]) := rfl
  have hc : detour.isValue (.named "Outer") "test" = .error (.cyclicType ["Knot", "Knot"]) := rfl
  have hr : detour.resolve "Right" "test" =
      .error (.circularReference ["Right", "Left", "Right"]) := rfl
  have hs : detour.synthesize Reader.language {} ["Outer"] =
      .error (.cyclicType ["Left", "Right", "Left"]) := rfl
  refine ⟨⟨hv, hcheck _ hv⟩, ⟨hc, hasked [] _ _ _ _ hc rfl⟩, ⟨hr, (hresolved _ _ _ hr).2.mpr rfl⟩,
    _, hs, _, rfl, (hruns _ _ _ _ hs rfl).resolve_right ?_⟩
  rintro ⟨hunchecked, _⟩
  cases hunchecked

/-- From a name that only leads to the circle, the path that is reported is none. -/
theorem resolve_detour :
    detour.resolve "Start" "test" =
        .error (.circularReference ["Start", "Left", "Right", "Left"]) ∧
      detour.synthesize Reader.language { validate := false } ["Start"] =
        .error (.cyclicType ["Start", "Left", "Right", "Left"]) ∧
      ¬ detour.Circle ["Start", "Left", "Right", "Left"] := by
  have hr : detour.resolve "Start" "test" =
      .error (.circularReference ["Start", "Left", "Right", "Left"]) := rfl
  refine ⟨hr, rfl, fun h => ?_⟩
  have hlast := (lasso_of_resolve hr).circle_iff.mp h
  exact absurd hlast (by decide)

end Table

end CopySynth
