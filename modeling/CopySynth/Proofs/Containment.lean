import CopySynth.Proofs.Aliases
import CopySynth.Schema.Validation

/-!
# Layers of a sound table

The check of a table lists its types so that each holds in place only types that stand after it.
What follows names downwards, from type to held type, ends within the length of that list.
-/

namespace CopySynth.Table

/-- A list of types each of which holds in place only types that stand after it. -/
inductive Layered (table : Table) : List String → Prop
  | nil : Layered table []
  | cons {name type rest} (hg : table.get? name = some type) (hn : name ∉ rest)
      (hc : ∀ n ∈ type.containedNames name, n ∈ rest) (hr : Layered table rest) :
      Layered table (name :: rest)

variable {table : Table} {language : Code.Language}

theorem Layered.nodup {names : List String} (h : table.Layered names) : names.Nodup := by
  induction h with
  | nil => exact List.nodup_nil
  | cons _ hn _ _ ih => exact List.nodup_cons.mpr ⟨hn, ih⟩

/-- A listed type is defined, and what it holds is listed. -/
theorem Layered.get? {names : List String} (h : table.Layered names) {name : String}
    (hm : name ∈ names) :
    ∃ type, table.get? name = some type ∧ ∀ n ∈ type.containedNames name, n ∈ names := by
  induction h with
  | nil => exact absurd hm List.not_mem_nil
  | @cons first type rest hg _ hc _ ih =>
    rcases List.mem_cons.mp hm with rfl | hm
    · exact ⟨type, hg, fun n hn => List.mem_cons_of_mem _ (hc n hn)⟩
    · obtain ⟨type, hg, hc⟩ := ih hm
      exact ⟨type, hg, fun n hn => List.mem_cons_of_mem _ (hc n hn)⟩

/-- What a visit adds to the list: layers on top, none of which stands on the path. -/
structure Extended (table : Table) (path finished result : List String) : Prop where
  layered : table.Layered result
  suffix : ∀ n ∈ finished, n ∈ result
  added : ∀ n ∈ result, n ∈ finished ∨ n ∉ path

theorem Extended.refl {path finished : List String} (h : table.Layered finished) :
    table.Extended path finished finished :=
  ⟨h, fun _ hn => hn, fun _ hn => .inl hn⟩

theorem Extended.trans {path a b c : List String} (h : table.Extended path a b)
    (h' : table.Extended path b c) : table.Extended path a c := by
  refine ⟨h'.layered, fun n hn => h'.suffix n (h.suffix n hn), fun n hn => ?_⟩
  rcases h'.added n hn with hb | hp
  · exact h.added n hb
  · exact .inr hp

/-- Visits one after the other extend the list by all that is visited. -/
theorem extended_of_foldlM {path : List String}
    {visit : List String → String → Except SchemaError (List String)}
    (hv : ∀ finished name result, table.Layered finished → visit finished name = .ok result →
      table.Extended path finished result ∧ name ∈ result)
    {names finished result : List String} (hl : table.Layered finished)
    (h : names.foldlM visit finished = .ok result) :
    table.Extended path finished result ∧ ∀ n ∈ names, n ∈ result := by
  induction names generalizing finished with
  | nil =>
    cases pure_eq_ok_iff.mp h
    exact ⟨.refl hl, by simp⟩
  | cons name names ih =>
    rw [List.foldlM_cons] at h
    obtain ⟨mid, hm, h⟩ := bind_eq_ok_iff.mp h
    obtain ⟨he, hname⟩ := hv finished name mid hl hm
    obtain ⟨he', hnames⟩ := ih he.layered h
    refine ⟨he.trans he', fun n hn => ?_⟩
    rcases List.mem_cons.mp hn with rfl | hn
    · exact he'.suffix _ hname
    · exact hnames n hn

/-- A visit puts a type on top of all it holds. The type itself is on the path meanwhile, so that
nothing below can be the type. -/
theorem extended_of_visit {steps : Nat} {path finished result : List String} {name : String}
    (hl : table.Layered finished) (h : table.visit steps path finished name = .ok result) :
    table.Extended path finished result ∧ name ∈ result := by
  induction steps generalizing path finished name result with
  | zero => simp [visit] at h
  | succ steps ih =>
    rw [visit] at h
    split at h
    · rename_i hf
      cases h
      exact ⟨.refl hl, hf⟩
    split at h
    · cases h
    rename_i hf hp
    cases hg : table.get? name with
    | none => simp [hg] at h
    | some type =>
      simp only [hg] at h
      obtain ⟨inside, hi, h⟩ := bind_eq_ok_iff.mp h
      cases pure_eq_ok_iff.mp h
      -- the type is on the path while what it holds is visited
      obtain ⟨he, hc⟩ := extended_of_foldlM
        (fun finished name result hl hv => ih hl hv) hl hi
      have hout : name ∉ inside := fun hm => by
        rcases he.added name hm with hm | hm
        · exact hf hm
        · exact hm (by simp)
      refine ⟨⟨.cons hg hout hc he.layered, fun n hn => ?_, fun n hn => ?_⟩, by simp⟩
      · exact List.mem_cons_of_mem _ (he.suffix n hn)
      · rcases List.mem_cons.mp hn with rfl | hn
        · exact .inr hp
        · refine (he.added n hn).imp_right fun hm hpath => hm ?_
          exact List.mem_append_left _ hpath

/-- A table that passes the check has its types in layers. -/
theorem layered_of_validate (h : table.validate language = .ok ()) :
    ∃ names, table.Layered names ∧ (∀ n, n ∈ names ↔ n ∈ table.names) ∧
      names.length ≤ table.size := by
  have hcheck : ∃ names, table.checkContainment = .ok names := by
    unfold validate at h
    split at h
    · cases h
    split at h
    · cases h
    cases hc : table.checkContainment with
    | error fault => simp [hc, Except.map] at h
    | ok names => exact ⟨names, rfl⟩
  obtain ⟨names, hn⟩ := hcheck
  obtain ⟨he, hall⟩ := extended_of_foldlM
    (fun finished name result hl hv => extended_of_visit hl hv) .nil hn
  have hdefined : ∀ n ∈ names, n ∈ table.names := by
    intro n hm
    obtain ⟨type, hg, _⟩ := he.layered.get? hm
    exact mem_names_of_get? hg
  exact ⟨names, he.layered, fun n => ⟨hdefined n, hall n⟩,
    length_le_size he.layered.nodup hdefined⟩

/-- A listed name is followed to a listed type that is no alias. -/
theorem Layered.resolveFrom {names : List String} (h : table.Layered names) {name : String}
    (hm : name ∈ names) (context : String) {steps : Nat} {passed : List String}
    (hs : names.length ≤ steps) (hp : ∀ n ∈ names, n ∉ passed) :
    ∃ canonical shape, table.resolveFrom context steps passed name = .ok (canonical, shape) ∧
      canonical ∈ names := by
  induction h generalizing name steps passed with
  | nil => exact absurd hm List.not_mem_nil
  | @cons first type rest hg hn hc _ ih =>
    rw [List.length_cons] at hs
    have hrest : ∀ n ∈ rest, n ∉ passed := fun n hn => hp n (List.mem_cons_of_mem _ hn)
    rcases List.mem_cons.mp hm with rfl | hm
    · obtain ⟨further, rfl⟩ : ∃ further, steps = further + 1 := ⟨steps - 1, by omega⟩
      rw [Table.resolveFrom, hg]
      cases type with
      | type shape => exact ⟨name, shape, rfl, List.mem_cons_self⟩
      | aliasOf target =>
        have htarget : target ∈ rest :=
          hc target (by simp [Definition.containedNames, Definition.contained])
        -- the aliases passed stand before the target in the list, so none of them comes back
        have hout : ∀ n ∈ rest, n ∉ passed ++ [name] := by
          intro n hm hpassed
          rcases List.mem_append.mp hpassed with hpassed | hpassed
          · exact hrest n hm hpassed
          · exact hn (List.mem_singleton.mp hpassed ▸ hm)
        have hlen : rest.length ≤ further := by omega
        obtain ⟨canonical, shape, hr, hcanonical⟩ := ih htarget hlen hout
        refine ⟨canonical, shape, ?_, List.mem_cons_of_mem _ hcanonical⟩
        dsimp only
        rw [if_neg (hp name List.mem_cons_self)]
        exact hr
    · have hlen : rest.length ≤ steps := by omega
      obtain ⟨canonical, shape, hr, hcanonical⟩ := ih hm hlen hrest
      exact ⟨canonical, shape, hr, List.mem_cons_of_mem _ hcanonical⟩

/-- What the first listed name leads to holds only types that are listed after the first. -/
theorem Layered.resolve {first : String} {rest : List String} (h : table.Layered (first :: rest))
    (context : String) (hs : rest.length ≤ table.size) :
    ∃ canonical shape, table.resolve first context = .ok (canonical, shape) ∧
      ∀ n ∈ (Definition.type shape).containedNames canonical, n ∈ rest := by
  cases h with
  | @cons _ type _ hg hn hc hr =>
    cases type with
    | type shape => exact ⟨first, shape, resolve_of_get? context hg, hc⟩
    | aliasOf target =>
      have htarget : target ∈ rest :=
        hc target (by simp [Definition.containedNames, Definition.contained])
      have hout : ∀ n ∈ rest, n ∉ [first] := fun n hm he => hn (List.mem_singleton.mp he ▸ hm)
      obtain ⟨canonical, shape, hfrom, hcanonical⟩ := hr.resolveFrom htarget context hs hout
      refine ⟨canonical, shape, ?_, ?_⟩
      · rw [Table.resolve, Table.resolveFrom, hg]
        exact hfrom
      · obtain ⟨type, hg', hheld⟩ := hr.get? hcanonical
        rw [(leadsTo_of_resolveFrom hfrom).get?] at hg'
        cases hg'
        exact hheld

end CopySynth.Table
