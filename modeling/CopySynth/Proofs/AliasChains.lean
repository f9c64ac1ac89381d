import CopySynth.Proofs.Aliases
import CopySynth.Proofs.Trails
import Mathlib.Dynamics.PeriodicPts.Defs

/-!
# Chains of aliases

The chain of a name begins with the name and goes on from each alias to what it stands for. It ends
at a type, or at a name that is not defined, or it comes back to an alias and then never ends.
`Walks` is the walk along a chain without a bound on its steps. It ends in each of the three cases,
with the outcome that belongs to the case.
-/

namespace CopySynth.Table

/-- What an alias stands for. -/
def target? (table : Table) (name : String) : Option String :=
  match table.get? name with
  | some (.aliasOf target) => some target
  | _ => none

/-- The name this many steps along the chain of a name, if the chain goes so far. -/
def chain (table : Table) (name : String) (steps : Nat) : Option String :=
  (Option.bind · table.target?)^[steps] (some name)

/-- The names on the chain of a name before this many steps. -/
def visited (table : Table) (name : String) (steps : Nat) : List String :=
  (List.range steps).filterMap (table.chain name)

/-- The way along the chain from a name, past these names, which are all different, to `last`. -/
structure Way (table : Table) (name : String) (passed : List String) (last : String) : Prop where
  along : table.visited name passed.length = passed
  arrives : table.chain name passed.length = some last
  once : passed.Nodup

/-- The outcome of following a name: the type at which the chain ends, the name without a definition
at which it ends, or the way along the chain to the first name that was met before. -/
inductive Outcome (table : Table) (name context : String) :
    Except SchemaError (String × Shape) → Prop
  | found {n canonical shape} (h : table.chain name n = some canonical)
      (hg : table.get? canonical = some (.type shape)) :
      Outcome table name context (.ok (canonical, shape))
  | lost {n missing} (h : table.chain name n = some missing) (hg : table.get? missing = none) :
      Outcome table name context (.error (.typeNotFound missing context))
  | returned {passed last} (h : table.Way name passed last) (hl : last ∈ passed) :
      Outcome table name context (.error (.circularReference (passed ++ [last])))

/-- The walk along aliases on its way, without a bound: it ends with this answer. -/
inductive Walks (table : Table) (context : String) :
    List String → String → Except SchemaError (String × Shape) → Prop
  | found {passed name shape} (hg : table.get? name = some (.type shape)) :
      Walks table context passed name (.ok (name, shape))
  | lost {passed name} (hg : table.get? name = none) :
      Walks table context passed name (.error (.typeNotFound name context))
  | returned {passed name target} (hg : table.get? name = some (.aliasOf target))
      (hn : name ∈ passed) :
      Walks table context passed name (.error (.circularReference (passed ++ [name])))
  | onward {passed name target answer} (hg : table.get? name = some (.aliasOf target))
      (hn : name ∉ passed) (hw : Walks table context (passed ++ [name]) target answer) :
      Walks table context passed name answer

variable {table : Table} {name last other target context : String} {n m : Nat}
  {passed : List String} {shape : Shape} {answer : Except SchemaError (String × Shape)}

/-! ## Along a chain -/

theorem target?_eq_some_iff :
    table.target? name = some target ↔ table.get? name = some (.aliasOf target) := by
  unfold target?
  cases table.get? name with
  | none => simp
  | some type => cases type <;> simp

theorem target?_of_type (hg : table.get? name = some (.type shape)) :
    table.target? name = none := by
  rw [target?, hg]

theorem target?_of_unknown (hg : table.get? name = none) : table.target? name = none := by
  rw [target?, hg]

theorem chain_succ (table : Table) (name : String) (n : Nat) :
    table.chain name (n + 1) = (table.chain name n).bind table.target? :=
  Function.iterate_succ_apply' ..

theorem chain_add_eq (table : Table) (name : String) (m n : Nat) :
    table.chain name (m + n) = (Option.bind · table.target?)^[m] (table.chain name n) :=
  Function.iterate_add_apply ..

/-- A chain goes on as the chain of any name on it. -/
theorem chain_add (h : table.chain name n = some other) (m : Nat) :
    table.chain name (m + n) = table.chain other m := by
  rw [chain_add_eq, h]
  rfl

theorem chain_eq_none_of_le (h : table.chain name n = none) (hle : n ≤ m) :
    table.chain name m = none := by
  obtain ⟨further, rfl⟩ := Nat.exists_eq_add_of_le' hle
  rw [chain_add_eq, h]
  exact Function.iterate_fixed rfl further

/-- A chain ends with the first name that is no alias. -/
theorem chain_le_end (h : table.chain name n = some last) (hl : table.target? last = none)
    (h' : table.chain name m = some other) : m ≤ n := by
  by_contra hlt
  have hend : table.chain name (n + 1) = none := by rw [chain_succ, h, Option.bind_some, hl]
  rw [chain_eq_none_of_le hend (Nat.lt_of_not_le hlt)] at h'
  cases h'

theorem chain_end_unique (h : table.chain name n = some last) (hl : table.target? last = none)
    (h' : table.chain name m = some other) (ho : table.target? other = none) : last = other := by
  obtain rfl : n = m := Nat.le_antisymm (chain_le_end h' ho h) (chain_le_end h hl h')
  exact Option.some.inj (h.symm.trans h')

/-- A chain that comes back to a name never ends. -/
theorem chain_isSome_of_repeat (hm : 0 < m) (h : table.chain name n = some other)
    (hback : table.chain name (m + n) = some other) (steps : Nat) :
    (table.chain name steps).isSome := by
  have hround : Function.IsPeriodicPt (Option.bind · table.target?) m (some other) := by
    rw [chain_add_eq, h] at hback
    exact hback
  have hrounds : table.chain name (m * steps + n) = some other := by
    rw [chain_add_eq, h]
    exact hround.mul_const steps
  by_contra hend
  rw [Option.not_isSome_iff_eq_none] at hend
  have hle : steps ≤ m * steps + n :=
    Nat.le_add_right_of_le (Nat.le_mul_of_pos_left steps hm)
  rw [chain_eq_none_of_le hend hle] at hrounds
  cases hrounds

/-! ## Ways along a chain -/

theorem visited_succ (table : Table) (name : String) (n : Nat) :
    table.visited name (n + 1) = table.visited name n ++ (table.chain name n).toList := by
  rw [visited, List.range_succ, List.filterMap_append]
  cases h : table.chain name n <;> simp [visited, h]

theorem mem_visited_iff :
    other ∈ table.visited name n ↔ ∃ i < n, table.chain name i = some other := by
  simp [visited]

theorem visited_sublist (hle : n ≤ m) :
    (table.visited name n).Sublist (table.visited name m) :=
  (List.range_sublist.mpr hle).filterMap _

theorem Way.start (table : Table) (name : String) : table.Way name [] name :=
  ⟨rfl, rfl, List.nodup_nil⟩

theorem Way.visited_succ (h : table.Way name passed last) :
    table.visited name (passed.length + 1) = passed ++ [last] := by
  rw [Table.visited_succ, h.along, h.arrives]
  rfl

theorem Way.extend (h : table.Way name passed last) (hn : last ∉ passed)
    (ht : table.target? last = some target) : table.Way name (passed ++ [last]) target := by
  have hlength : (passed ++ [last]).length = passed.length + 1 := List.length_append
  refine ⟨by rw [hlength, h.visited_succ], ?_, ?_⟩
  · rw [hlength, chain_succ, h.arrives, Option.bind_some, ht]
  · rw [← List.concat_eq_append]
    exact h.once.concat hn

/-- A way that comes back to a name it has passed is the way of a chain without end. -/
theorem Way.isSome_chain (h : table.Way name passed last) (hl : last ∈ passed) (steps : Nat) :
    (table.chain name steps).isSome := by
  rw [← h.along, mem_visited_iff] at hl
  obtain ⟨i, hi, hchain⟩ := hl
  refine chain_isSome_of_repeat (Nat.sub_pos_of_lt hi) hchain ?_ steps
  rw [Nat.sub_add_cancel hi.le, h.arrives]

/-- No way goes on behind the first name that is met again. -/
theorem Way.length_le (h : table.Way name passed last) {earlier : List String}
    (h' : table.Way name earlier other) (ho : other ∈ earlier) :
    passed.length ≤ earlier.length := by
  by_contra hlt
  have hsub : (table.visited name (earlier.length + 1)).Sublist passed := by
    conv_rhs => rw [← h.along]
    exact visited_sublist (Nat.lt_of_not_le hlt)
  rw [h'.visited_succ] at hsub
  have hdistinct := hsub.nodup h.once
  rw [List.nodup_append] at hdistinct
  exact hdistinct.2.2 other ho other (List.mem_singleton_self other) rfl

/-- Only one way comes back to a name for the first time. -/
theorem Way.unique (h : table.Way name passed last) (hl : last ∈ passed) {others : List String}
    (h' : table.Way name others other) (ho : other ∈ others) :
    passed = others ∧ last = other := by
  have hlength := Nat.le_antisymm (h.length_le h' ho) (h'.length_le h hl)
  refine ⟨?_, ?_⟩
  · rw [← h.along, hlength, h'.along]
  · have hlast := h.arrives
    rw [hlength, h'.arrives] at hlast
    exact (Option.some.inj hlast).symm

/-! ## The walk along a chain -/

/-- A chain that comes back goes on from each of its names. -/
theorem Way.target?_ne_none (h : table.Way name passed last) (hl : last ∈ passed)
    (hc : table.chain name n = some other) : table.target? other ≠ none := by
  intro hend
  have hgoes := h.isSome_chain hl (n + 1)
  rw [chain_succ, hc, Option.bind_some, hend] at hgoes
  cases hgoes

theorem Outcome.unique {others : Except SchemaError (String × Shape)}
    (h : table.Outcome name context answer) (h' : table.Outcome name context others) :
    answer = others := by
  cases h with
  | found hc hg =>
    have hend := target?_of_type hg
    cases h' with
    | found hc' hg' =>
      obtain rfl := chain_end_unique hc hend hc' (target?_of_type hg')
      rw [hg] at hg'
      cases hg'
      rfl
    | lost hc' hg' =>
      obtain rfl := chain_end_unique hc hend hc' (target?_of_unknown hg')
      rw [hg] at hg'
      cases hg'
    | returned hw hl => exact absurd hend (hw.target?_ne_none hl hc)
  | lost hc hg =>
    have hend := target?_of_unknown hg
    cases h' with
    | found hc' hg' =>
      obtain rfl := chain_end_unique hc hend hc' (target?_of_type hg')
      rw [hg] at hg'
      cases hg'
    | lost hc' hg' =>
      obtain rfl := chain_end_unique hc hend hc' (target?_of_unknown hg')
      rfl
    | returned hw hl => exact absurd hend (hw.target?_ne_none hl hc)
  | returned hw hl =>
    cases h' with
    | found hc' hg' => exact absurd (target?_of_type hg') (hw.target?_ne_none hl hc')
    | lost hc' hg' => exact absurd (target?_of_unknown hg') (hw.target?_ne_none hl hc')
    | returned hw' hl' =>
      obtain ⟨rfl, rfl⟩ := hw.unique hl hw' hl'
      rfl

/-- The bound of the walk is never reached: the walk without a bound ends, and answers the same. -/
theorem walks_of_trail {steps : Nat} (ht : table.Trail table.Holds steps passed name) :
    table.Walks context passed name (table.resolveFrom context steps passed name) := by
  induction steps generalizing passed name with
  | zero =>
    obtain ⟨_, hsteps⟩ := ht.exists_steps fun _ _ hh => hh.mem_names
    cases hsteps
  | succ steps ih =>
    rw [resolveFrom]
    cases hg : table.get? name with
    | none => exact .lost hg
    | some type =>
      cases type with
      | type => exact .found hg
      | aliasOf target =>
        dsimp only
        split
        · rename_i hn
          exact .returned hg hn
        · rename_i hn
          exact .onward hg hn (ih (ht.extend hn ⟨_, hg, .target⟩))

theorem Walks.outcome {current : String} (hw : table.Walks context passed current answer)
    (h : table.Way name passed current) : table.Outcome name context answer := by
  induction hw with
  | found hg => exact .found h.arrives hg
  | lost hg => exact .lost h.arrives hg
  | returned _ hn => exact .returned h hn
  | onward hg hn _ ih => exact ih (h.extend hn (target?_eq_some_iff.mpr hg))

theorem walks_resolve (table : Table) (name context : String) :
    table.Walks context [] name (table.resolve name context) :=
  walks_of_trail (.start name)

/-- Following a name answers the outcome that its chain has. -/
theorem resolve_eq_iff :
    table.resolve name context = answer ↔ table.Outcome name context answer := by
  have houtcome := (table.walks_resolve name context).outcome (.start table name)
  constructor
  · rintro rfl
    exact houtcome
  · exact houtcome.unique

/-- All names on a chain that ends at a type lead to this type. -/
theorem resolve_of_chain {canonical : String}
    (h : table.resolve name context = .ok (canonical, shape))
    (hc : table.chain name n = some other) (elsewhere : String) :
    table.resolve other elsewhere = .ok (canonical, shape) := by
  cases resolve_eq_iff.mp h with
  | @found m _ _ hm hg =>
    obtain ⟨further, rfl⟩ := Nat.exists_eq_add_of_le' (chain_le_end hm (target?_of_type hg) hc)
    rw [chain_add hc] at hm
    exact resolve_eq_iff.mpr (.found hm hg)

/-- A walk reports that it came back exactly when the chain never leaves the aliases. -/
theorem exists_circularReference_iff :
    (∃ path, table.resolve name context = .error (.circularReference path)) ↔
      ∀ n, ∃ other target, table.chain name n = some other ∧
        table.get? other = some (.aliasOf target) := by
  constructor
  · rintro ⟨path, h⟩ n
    cases resolve_eq_iff.mp h with
    | returned hw hl =>
      obtain ⟨other, hc⟩ := Option.isSome_iff_exists.mp (hw.isSome_chain hl n)
      obtain ⟨target, ht⟩ := Option.ne_none_iff_exists'.mp (hw.target?_ne_none hl hc)
      exact ⟨other, target, hc, target?_eq_some_iff.mp ht⟩
  · intro hall
    have hgoes : ∀ {n last}, table.chain name n = some last → table.target? last ≠ none := by
      intro n last h hend
      obtain ⟨other, target, hc, hg⟩ := hall n
      rw [h] at hc
      cases hc
      rw [target?_eq_some_iff.mpr hg] at hend
      cases hend
    generalize hr : table.resolve name context = answer
    cases resolve_eq_iff.mp hr with
    | found h hg => exact absurd (target?_of_type hg) (hgoes h)
    | lost h hg => exact absurd (target?_of_unknown hg) (hgoes h)
    | returned => exact ⟨_, rfl⟩

/-- Following a name ends, and answers by the chain of the name: with the type at its end, which all
names on the chain lead to; with the undefined name at its end; or, exactly when the chain never
leaves the aliases, with the way to the first name that comes up twice. -/
theorem resolve_decides (table : Table) (name context : String) :
    table.Walks context [] name (table.resolve name context) ∧
    (∀ answer, table.resolve name context = answer ↔ table.Outcome name context answer) ∧
    (∀ canonical shape, table.resolve name context = .ok (canonical, shape) →
      ∀ n other elsewhere, table.chain name n = some other →
        table.resolve other elsewhere = .ok (canonical, shape)) ∧
    ((∃ path, table.resolve name context = .error (.circularReference path)) ↔
      ∀ n, ∃ other target, table.chain name n = some other ∧
        table.get? other = some (.aliasOf target)) :=
  ⟨table.walks_resolve name context, fun _ => resolve_eq_iff,
    fun _ _ h _ _ elsewhere hc => resolve_of_chain h hc elsewhere, exists_circularReference_iff⟩

/-- An alias of an alias of a type, an alias of nothing, and an alias that leads to two aliases of
each other. -/
def signposts : Table where
  entries := [("Icon", .aliasOf "Picture"), ("Picture", .aliasOf "Image"),
    ("Image", .type (.builtin { marker := .capability })), ("Ghost", .aliasOf "Gone"),
    ("Start", .aliasOf "Left"), ("Left", .aliasOf "Right"), ("Right", .aliasOf "Left")]
  distinct_names := by decide
  distinct_fields := by simp [Definition.Distinct, Shape.Distinct]

theorem resolve_signposts :
    signposts.resolve "Icon" "test" = .ok ("Image", .builtin { marker := .capability }) ∧
      signposts.resolve "Picture" "slot" = .ok ("Image", .builtin { marker := .capability }) ∧
    signposts.resolve "Ghost" "test" = .error (.typeNotFound "Gone" "test") ∧
    signposts.Way "Start" ["Start", "Left", "Right"] "Left" ∧
      ∀ n, ∃ other target, signposts.chain "Start" n = some other ∧
        signposts.get? other = some (.aliasOf target) := by
  obtain ⟨_, hicon, hnext, _⟩ := resolve_decides signposts "Icon" "test"
  obtain ⟨_, hghost, _⟩ := resolve_decides signposts "Ghost" "test"
  obtain ⟨_, hstart, _, hround⟩ := resolve_decides signposts "Start" "test"
  have himage := (hicon _).mpr (.found (n := 2) rfl rfl)
  have hgone := (hghost _).mpr (.lost (n := 1) rfl rfl)
  have hback : signposts.resolve "Start" "test" =
      .error (.circularReference ["Start", "Left", "Right", "Left"]) := rfl
  refine ⟨himage, hnext _ _ himage 1 "Picture" "slot" rfl, hgone, ?_, hround.mp ⟨_, hback⟩⟩
  exact ⟨rfl, rfl, by decide⟩

end CopySynth.Table
