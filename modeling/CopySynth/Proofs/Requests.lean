import CopySynth.Proofs.FirstOccurrence
import CopySynth.Proofs.Methods
import CopySynth.Proofs.Queue
import CopySynth.Proofs.Turns
import CopySynth.Reader.Language

/-!
# The requested types of a run

The roots of a run are the canonical names behind the requested names that are no builtins, in
ascending order of the requested names, each once. The first phase of a run walks the requests in
that order; what one of them does to the state is stated once for both families.
-/

namespace CopySynth

/-- Each name is below all names after it. -/
theorem pairwise_insertAscending (name : String) {names : List String}
    (h : names.Pairwise (· < ·)) : (insertAscending name names).Pairwise (· < ·) := by
  induction names with
  | nil => simp [insertAscending]
  | cons first rest ih =>
    rw [List.pairwise_cons] at h
    unfold insertAscending
    split
    · rename_i hlt
      refine List.pairwise_cons.mpr ⟨?_, List.pairwise_cons.mpr h⟩
      intro other ho
      rcases List.mem_cons.mp ho with rfl | ho
      · exact hlt
      · exact String.lt_trans hlt (h.1 other ho)
    · split
      · exact List.pairwise_cons.mpr h
      · rename_i hnlt hne
        refine List.pairwise_cons.mpr ⟨?_, ih h.2⟩
        intro other ho
        rcases mem_insertAscending.mp ho with rfl | ho
        · by_contra hc
          exact hne (String.le_antisymm (String.not_lt.mp hc) (String.not_lt.mp hnlt))
        · exact h.1 other ho

/-- Requests are taken in strictly ascending order. -/
theorem pairwise_ascending (names : List String) : (ascending names).Pairwise (· < ·) := by
  induction names with
  | nil => simp [ascending]
  | cons name names ih => exact pairwise_insertAscending name ih

namespace Table

/-- Whether a name of the table stands for a builtin. -/
def namesBuiltin (table : Table) (name : String) : Bool :=
  (table.get? name).any Definition.isBuiltin

/-- The canonical name behind a requested name that leads to no builtin. -/
def rootName? (table : Table) (root : String) : Option String :=
  match table.resolve root "root list" with
  | .ok (name, shape) => if shape.isBuiltin then none else some name
  | .error _ => none

/-- The canonical names of the requests that are no builtins, in ascending order of the requested
names, each once. -/
def rootNames (table : Table) (roots : List String) : List String :=
  ((ascending roots).filterMap table.rootName?).eraseDups

theorem namesBuiltin_eq {table : Table} {name : String} {shape : Shape}
    (hg : table.get? name = some (.type shape)) : table.namesBuiltin name = shape.isBuiltin := by
  rw [namesBuiltin, hg]
  rfl

/-- Nodes that hold each other through a growable sequence, and a ring that starts with one. -/
def ring : Table where
  entries := [("i32", .type (.builtin { zero := some "0" })), ("Drawable", .capability),
    ("Nodes", .type (.dynamic (.named "Link"))), ("Link", .aliasOf "Node"),
    ("Node", .type (.record [("label", .named "i32"), ("shape", .named "Drawable"),
      ("next", .named "Nodes")])),
    ("Pair", .type (.fixed 2 (.named "i32"))),
    ("Ring", .type (.record [("first", .named "Node"), ("ends", .named "Pair")]))]
  distinct_names := by decide
  distinct_fields := by
    simp [Definition.Distinct, Definition.capability, Shape.Distinct, Ref.FieldsDistinct,
      Ref.Distinct]

theorem validate_ring : ring.validate Reader.language = .ok () := by decide +kernel

/-- What is made for the ring. A pair is a value type, which needs no copy; no copy asks for its
predicate either, which is made because the pair is in the table. -/
def ringMethods : Synthesis where
  methods := [
    { type := "Ring", family := .publicCopy,
      body := .copy (.record [("first", .helper "Node"), ("ends", .assign)]) },
    { type := "Ring", family := .zeroPredicate,
      body := .zero (.allFields [("first", .delegate "Node"), ("ends", .zeroValue (some "Pair"))]) },
    { type := "Node", family := .privateCopy, discovered := true,
      body := .copy (.record
        [("label", .assign), ("shape", .capability "Drawable"), ("next", .helper "Nodes")]) },
    { type := "Nodes", family := .privateCopy, discovered := true,
      body := .copy (.dynamic (.helper "Node")) },
    { type := "Node", family := .zeroPredicate, discovered := true,
      body := .zero (.allFields
        [("label", .literal "0"), ("shape", .unset), ("next", .empty true)]) },
    { type := "Pair", family := .zeroPredicate, body := .zero .equalsZeroValue }]
  capabilities := ["Drawable"]

theorem synthesize_ring : ring.synthesize Reader.language {} ["Ring"] = .ok ringMethods := rfl

end Table

namespace Run

variable {table : Table}

/-- What a request that is not skipped leaves in the state: the bodies made for the canonical type,
with what they call queued before the type is done. -/
structure RootMade (table : Table) (run : Run) (name : String) (shape : Shape) (body : CopyBody)
    (zero : Option ZeroBody) (next : Run) : Prop where
  known : table.get? name = some (.type shape)
  notCapability : shape.isCapability = false
  fresh : name ∉ run.requested
  copyBody : table.copyBody name = .ok body
  zeroBody : if shape.isBuiltin then zero = none else table.zeroBody name = .ok zero
  requested : next.requested = run.requested ++ [name]
  copies : next.copies = (run.copies.requireAll body.helpers name).markDone name
  zeros : next.zeros =
    (run.zeros.requireAll ((zero.map ZeroBody.delegates).getD []) name).markDone name
  output : next.output =
    let copied := if shape.isBuiltin then run.output
      else run.output.addCopy name .publicCopy body false
    zero.elim copied (copied.addZero name)

/-- A request is skipped when it names an interface or a type that was requested before. -/
theorem addRoot_effect {run next : Run} {root : String} (h : addRoot table run root = .ok next) :
    ∃ name shape, table.resolve root "root list" = .ok (name, shape) ∧
      (((shape.isCapability = true ∨ name ∈ run.requested) ∧ next = run) ∨
        ∃ body zero, RootMade table run name shape body zero next) := by
  obtain ⟨name, shape, hr, hcase⟩ := addRoot_cases h
  refine ⟨name, shape, hr, hcase.imp id ?_⟩
  rintro ⟨hcap, hnew, copied, made, hc, hm, rfl⟩
  have hg := Table.get?_of_resolve hr
  obtain ⟨body, hb, rfl⟩ := makeCopy_cases hg hc
  cases hs : shape.isBuiltin with
  | true =>
    rw [hs, if_pos rfl] at hm
    subst hm
    refine ⟨body, none, hg, hcap, hnew, hb, by simp [hs], rfl, rfl, rfl, ?_⟩
    simp [markDone, withWork, hs]
  | false =>
    rw [hs, if_neg (by simp)] at hm
    obtain ⟨zero, hz, rfl⟩ := makeZero_cases hm
    refine ⟨body, zero, hg, hcap, hnew, hb, by simp [hs, hz], rfl, rfl, rfl, ?_⟩
    have hf : (Family.publicCopy == Family.privateCopy) = false := rfl
    cases zero <;> simp [markDone, withWork, hs, hf]

/-- A property of the requests taken and the state that every request keeps holds after the first
phase. -/
theorem roots_induct {P : List String → Run → Prop}
    (step : ∀ before run root next, P before run → addRoot table run root = .ok next →
      P (before ++ [root]) next)
    {roots before : List String} {run final : Run}
    (h : roots.foldlM (addRoot table) run = .ok final) (hi : P before run) :
    P (before ++ roots) final := by
  induction roots generalizing before run with
  | nil =>
    cases pure_eq_ok_iff.mp h
    simpa using hi
  | cons root roots ih =>
    rw [List.foldlM_cons] at h
    obtain ⟨next, hn, h⟩ := bind_eq_ok_iff.mp h
    simpa using ih h (step before run root next hi hn)

/-- The requested types that have copies of their own. -/
def publics (table : Table) (run : Run) : List String :=
  run.requested.filter fun name => !table.namesBuiltin name

theorem publics_congr {run next : Run} (h : next.requested = run.requested) :
    next.publics table = run.publics table := by
  rw [publics, h, publics]

theorem RootMade.publics {run next : Run} {name : String} {shape : Shape} {body : CopyBody}
    {zero : Option ZeroBody} (h : RootMade table run name shape body zero next) :
    next.publics table = run.publics table ++ if shape.isBuiltin then [] else [name] := by
  rw [Run.publics, h.requested, List.filter_append, List.filter_singleton,
    Table.namesBuiltin_eq h.known, ← Run.publics]
  cases shape.isBuiltin <;> rfl

/-- The predicate that a request adds after the copy does not concern copies. -/
theorem RootMade.sameCopies {run next : Run} {name : String} {shape : Shape} {body : CopyBody}
    {zero : Option ZeroBody} (h : RootMade table run name shape body zero next)
    (hs : shape.isBuiltin = false) :
    SameCopies { next with output := run.output.addCopy name .publicCopy body false } next := by
  have hout := h.output
  rw [hs] at hout
  cases zero with
  | none => exact ⟨rfl, rfl, by simp [hout], fun _ _ => by simp [hout], by simp [hout]⟩
  | some zero =>
    refine ⟨rfl, rfl, by simp [hout], fun family hf => ?_, by simp [hout, Synthesis.addZero]⟩
    simp [hout, Ne.symm hf]

/-- The state after the requests `before`: those taken over are distinct, and without the builtins
they are the roots. -/
structure Requested (table : Table) (before : List String) (run : Run) : Prop where
  distinct : run.requested.Nodup
  roots : run.publics table = (before.filterMap table.rootName?).eraseDups

theorem Requested.empty : Requested table [] {} := ⟨by simp, by simp [publics]⟩

theorem Requested.step {before : List String} {run next : Run} {root : String}
    (hi : Requested table before run) (h : addRoot table run root = .ok next) :
    Requested table (before ++ [root]) next := by
  obtain ⟨name, shape, hr, hcase⟩ := addRoot_effect h
  have hg := Table.get?_of_resolve hr
  have hroot : table.rootName? root = if shape.isBuiltin then none else some name := by
    simp [Table.rootName?, hr]
  have hmem : name ∈ before.filterMap table.rootName? ↔
      name ∈ run.requested ∧ shape.isBuiltin = false := by
    rw [← List.mem_eraseDups, ← hi.roots, publics, List.mem_filter, Table.namesBuiltin_eq hg]
    simp
  rcases hcase with ⟨hskip, rfl⟩ | ⟨body, zero, hm⟩
  · refine ⟨hi.distinct, ?_⟩
    rw [hi.roots, List.filterMap_append]
    cases hs : shape.isBuiltin with
    | true => simp [hroot, hs]
    | false =>
      -- an interface would be a builtin, so the type was requested before
      have hin : name ∈ next.requested := by
        refine hskip.resolve_left fun hcap => ?_
        cases shape <;> simp [Shape.isCapability, Shape.isBuiltin] at hcap hs
      have hin' := hmem.mpr ⟨hin, hs⟩
      rw [List.filterMap_cons, hroot, hs]
      simp [eraseDups_concat, hin']
  · refine ⟨?_, ?_⟩
    · rw [hm.requested]
      exact List.nodup_append.mpr ⟨hi.distinct, by simp, by
        intro a ha b hb hab
        rw [List.mem_singleton.mp hb] at hab
        exact hm.fresh (hab ▸ ha)⟩
    · rw [publics, hm.requested, List.filter_append, ← publics, hi.roots, List.filterMap_append]
      cases hs : shape.isBuiltin with
      | true => simp [hroot, hs, Table.namesBuiltin_eq hg]
      | false =>
        have hnot : name ∉ before.filterMap table.rootName? := fun hc => hm.fresh (hmem.mp hc).1
        rw [List.filterMap_cons, hroot, hs]
        simp [eraseDups_concat, hnot, Table.namesBuiltin_eq hg, hs]

end Run

end CopySynth
