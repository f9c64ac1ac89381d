import CopySynth.Proofs.Faults
import CopySynth.Proofs.UnnamedStorage

/-!
# When a run succeeds

A run over a sound table succeeds unless an anonymous record that owns storage stands in its way. A
zero predicate is made for every record and every sequence of fixed length of the table, so there it
stands in the way of every run. In a growable sequence only copies come across it.
-/

namespace CopySynth

theorem Shape.not_isCapability {shape : Shape} (hb : shape.isBuiltin = false) :
    shape.isCapability = false := by
  cases shape with
  | builtin => cases hb
  | fixed | dynamic | record => rfl

namespace Table

/-- An anonymous record that owns storage stands in the way of a run. -/
inductive Obstructed (table : Table) (roots : List String) : Prop
  | inPlace {name shape} (he : (name, .type shape) ∈ table.entries)
      (hp : shape.hasPredicate = true) (hs : table.HidesStorage shape) : Obstructed table roots
  | behind {name element} (he : (name, .type (.dynamic element)) ∈ table.entries)
      (hn : table.CopyNeeded (table.rootNames roots) name)
      (hs : table.HidesStorage (.dynamic element)) : Obstructed table roots

variable {table : Table} {language : Code.Language} {config : Config} {roots : List String}

/-- In a sound table whatever is at fault comes across an anonymous record that owns storage. -/
theorem Fault.obstructed (hv : table.validate language = .ok ())
    (hr : ∀ root ∈ roots, root ∈ table.names) {fault : GenerationError}
    (h : table.Fault language config roots fault) :
    table.Obstructed roots ∧ ∃ type reason, fault = .unsupportedShape type reason := by
  cases h with
  | check _ hfault =>
    rw [hv] at hfault
    cases hfault
  | @request root _ hroot hfault =>
    obtain ⟨canonical, shape, hresolve⟩ := exists_resolve_of_validate hv (hr root hroot) "root list"
    rw [hresolve] at hfault
    cases hfault
  | @copy type _ hn hfault =>
    obtain ⟨shape, hg, hb⟩ := hn.get?
    have he := get?_eq_some_iff.mp hg
    rcases copyBody_of_validate hv hg (Shape.not_isCapability hb) with
      ⟨_, body, hbody⟩ | ⟨hs, context, hbody⟩
    · rw [hbody] at hfault
      cases hfault
    · rw [hbody] at hfault
      cases hfault
      refine ⟨?_, _, _, rfl⟩
      cases shape with
      | builtin => cases hb
      | dynamic => exact .behind he hn hs
      | fixed | record => exact .inPlace he rfl hs
  | @zero type _ hp hfault =>
    obtain ⟨shape, hg, hp⟩ := hasPredicate_eq_true_iff.mp hp
    rcases zeroBody_of_validate hv hg hp with ⟨_, body, hbody⟩ | ⟨hs, context, hbody⟩
    · rw [hbody] at hfault
      cases hfault
    · rw [hbody] at hfault
      cases hfault
      exact ⟨.inPlace (get?_eq_some_iff.mp hg) hp hs, _, _, rfl⟩

/-- A run that succeeds has come across all bodies at which it could have failed. -/
theorem not_obstructed_of_synthesize (hv : table.validate language = .ok ()) {synthesis : Synthesis}
    (h : table.synthesize language config roots = .ok synthesis) : ¬ table.Obstructed roots := by
  rintro (⟨he, hp, hs⟩ | ⟨he, hn, hs⟩)
  -- the predicate of the type was made, since those of the whole table were
  · have hg := get?_eq_some_iff.mpr he
    have hclosed := zerosClosed_of_synthesize h
    obtain ⟨body, hsome⟩ := Option.isSome_iff_exists.mp
      ((hclosed.covers _).mpr (hasPredicate_eq_true_iff.mpr ⟨_, hg, hp⟩))
    rcases zeroBody_of_validate hv hg hp with ⟨hno, _⟩ | ⟨_, context, hbody⟩
    · exact hno hs
    · rw [hclosed.bodies _ _ hsome] at hbody
      cases hbody
  -- the copy of the type was made, since it is needed
  · obtain ⟨run, taken, rfl, hm, hw, hroots, _⟩ := Run.copies_of_synthesize h
    rw [← hroots] at hn
    obtain ⟨copy, hc, rfl⟩ := List.mem_map.mp ((hm.mem_iff_needed hw _).mpr hn)
    obtain ⟨_, _, _, hmade⟩ := hm.bodies copy hc
    rcases copyBody_of_validate hv (get?_eq_some_iff.mpr he) rfl with ⟨hno, _⟩ | ⟨_, context, hbody⟩
    · exact hno hs
    · rw [hmade] at hbody
      cases hbody

/-- Without a limit no run fails for want of a budget, however many turns it may take, and more
turns than the table has names make no difference. Over a table that passes its check, a run for
requests of the table succeeds exactly when no anonymous record that owns storage stands in its way,
and else names a type that no rule applies to. -/
theorem outcome_of_synthesize (table : Table) (language : Code.Language) (config : Config)
    (roots : List String) (hm : config.maxSteps = none) :
    (∀ turns family budget chain pending, table.synthesizeWithin language turns config roots ≠
      .error (.nonTerminating family budget chain pending)) ∧
    (∀ turns, table.size < turns →
      table.synthesizeWithin language turns config roots = table.synthesize language config roots) ∧
    (table.validate language = .ok () → (∀ root ∈ roots, root ∈ table.names) →
      ((∃ synthesis, table.synthesize language config roots = .ok synthesis) ↔
        ¬ table.Obstructed roots) ∧
      (table.Obstructed roots →
        ∃ type reason,
          table.synthesize language config roots = .error (.unsupportedShape type reason))) := by
  refine ⟨fun turns family budget chain pending h => ?_, fun turns => synthesizeWithin_eq,
    fun hv hr => ⟨⟨fun ⟨synthesis, h⟩ => not_obstructed_of_synthesize hv h, fun hno => ?_⟩,
      fun ho => ?_⟩⟩
  · have := (fault_of_synthesizeWithin hm h).outOfBudget_eq
    cases this
  · cases h : table.synthesize language config roots with
    | ok synthesis => exact ⟨synthesis, rfl⟩
    | error fault => exact absurd ((fault_of_synthesizeWithin hm h).obstructed hv hr).1 hno
  · cases h : table.synthesize language config roots with
    | ok synthesis => exact absurd ho (not_obstructed_of_synthesize hv h)
    | error fault =>
      obtain ⟨_, type, reason, rfl⟩ := (fault_of_synthesizeWithin hm h).obstructed hv hr
      exact ⟨type, reason, rfl⟩

/-- A board whose rows are growable sequences of anonymous records, each of which owns its cells. -/
def board : Table where
  entries := [("i32", .type (.builtin { zero := some "0" })),
    ("Cells", .type (.dynamic (.named "i32"))),
    ("Rows", .type (.dynamic (.inline [("cells", .named "Cells")]))),
    ("Board", .type (.record [("rows", .named "Rows")])),
    ("Tag", .type (.record [("id", .named "i32")]))]
  distinct_names := by decide
  distinct_fields := by
    simp [Definition.Distinct, Shape.Distinct, Ref.FieldsDistinct, Ref.Distinct]

/-- The rows stand in the way of the runs that copy them. -/
theorem outcome_board :
    (∃ synthesis, board.synthesize Reader.language {} ["Tag"] = .ok synthesis) ∧
    ¬ board.Obstructed ["Tag"] ∧
      board.Obstructed ["Board"] ∧ board.synthesize Reader.language {} ["Board"] =
        .error (.unsupportedShape "Rows" (.unnamedCopy "element 'element' of 'Rows'")) := by
  have hv : board.validate Reader.language = .ok () := by decide +kernel
  have htag : ∃ synthesis, board.synthesize Reader.language {} ["Tag"] = .ok synthesis := ⟨_, rfl⟩
  have hboard : board.synthesize Reader.language {} ["Board"] =
      .error (.unsupportedShape "Rows" (.unnamedCopy "element 'element' of 'Rows'")) := rfl
  obtain ⟨_, _, hdecides⟩ := outcome_of_synthesize board Reader.language {} ["Tag"] rfl
  obtain ⟨_, _, hdecides'⟩ := outcome_of_synthesize board Reader.language {} ["Board"] rfl
  refine ⟨htag, (hdecides hv (by decide)).1.mp htag, ?_, hboard⟩
  by_contra hno
  obtain ⟨synthesis, hs⟩ := (hdecides' hv (by decide)).1.mpr hno
  rw [hboard] at hs
  cases hs

end Table

end CopySynth
