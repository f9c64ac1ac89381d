import CopySynth.Proofs.Lists
import CopySynth.Schema.Resolution
import Mathlib.Data.List.Perm.Subperm

/-!
# Where aliases lead

`LeadsTo` describes the walk along aliases without a bound or a path. What the walk finds does not
depend on the words it would use in a message.
-/

namespace CopySynth.Table

/-- A name leads through aliases to a type that is no alias. -/
inductive LeadsTo (table : Table) : String → String → Shape → Prop
  | type {name shape} (h : table.get? name = some (.type shape)) : LeadsTo table name name shape
  | aliased {name target canonical shape} (h : table.get? name = some (.aliasOf target))
      (ht : LeadsTo table target canonical shape) : LeadsTo table name canonical shape

variable {table : Table}

theorem get?_of_lookup {name context : String} {type : Definition}
    (h : table.lookup name context = .ok type) : table.get? name = some type := by
  unfold lookup at h
  split at h
  · cases h
    assumption
  · cases h

/-- A table has room for no more distinct names than its size. -/
theorem length_le_size {names : List String} (hn : names.Nodup) (hs : names ⊆ table.names) :
    names.length ≤ table.size := by
  rw [← names_length]
  exact (List.subperm_of_subset hn hs).length_le

theorem LeadsTo.get? {name canonical : String} {shape : Shape}
    (h : table.LeadsTo name canonical shape) : table.get? canonical = some (.type shape) := by
  induction h with
  | type h => exact h
  | aliased _ _ ih => exact ih

theorem LeadsTo.mem_names {name canonical : String} {shape : Shape}
    (h : table.LeadsTo name canonical shape) : name ∈ table.names := by
  cases h with
  | type hg | aliased hg _ => exact mem_names_of_get? hg

theorem LeadsTo.unique {name c₁ c₂ : String} {s₁ s₂ : Shape} (h₁ : table.LeadsTo name c₁ s₁)
    (h₂ : table.LeadsTo name c₂ s₂) : c₁ = c₂ ∧ s₁ = s₂ := by
  induction h₁ with
  | type h =>
    cases h₂ with
    | type h' =>
      rw [h] at h'
      cases h'
      exact ⟨rfl, rfl⟩
    | aliased h' _ =>
      rw [h] at h'
      cases h'
  | aliased h _ ih =>
    cases h₂ with
    | type h' =>
      rw [h] at h'
      cases h'
    | aliased h' ht =>
      rw [h] at h'
      cases h'
      exact ih ht

theorem leadsTo_of_resolveFrom {context : String} {steps : Nat} {passed : List String}
    {name canonical : String} {shape : Shape}
    (h : table.resolveFrom context steps passed name = .ok (canonical, shape)) :
    table.LeadsTo name canonical shape := by
  induction steps generalizing passed name with
  | zero => simp [resolveFrom] at h
  | succ steps ih =>
    simp only [resolveFrom] at h
    cases hg : table.get? name with
    | none => simp [hg] at h
    | some type =>
      cases type with
      | type shape' =>
        simp only [hg, Except.ok.injEq, Prod.mk.injEq] at h
        obtain ⟨rfl, rfl⟩ := h
        exact .type hg
      | aliasOf target =>
        simp only [hg] at h
        split at h
        · cases h
        · exact .aliased hg (ih h)

theorem leadsTo_of_resolve {context name canonical : String} {shape : Shape}
    (h : table.resolve name context = .ok (canonical, shape)) :
    table.LeadsTo name canonical shape :=
  leadsTo_of_resolveFrom h

theorem get?_of_resolve {context name canonical : String} {shape : Shape}
    (h : table.resolve name context = .ok (canonical, shape)) :
    table.get? canonical = some (.type shape) :=
  (leadsTo_of_resolve h).get?

/-! ## Canonical names -/

/-- What a name leads to does not depend on where it is used. -/
theorem resolveFrom_context {context name : String} {steps : Nat} {passed : List String}
    {found : String × Shape} (h : table.resolveFrom context steps passed name = .ok found)
    (other : String) : table.resolveFrom other steps passed name = .ok found := by
  induction steps generalizing passed name with
  | zero => cases h
  | succ steps ih =>
    rw [resolveFrom] at h ⊢
    cases hg : table.get? name with
    | none =>
      rw [hg] at h
      cases h
    | some type =>
      rw [hg] at h
      cases type with
      | type => exact h
      | aliasOf =>
        dsimp only at h ⊢
        split at h
        · cases h
        · rename_i hn
          rw [if_neg hn]
          exact ih h

theorem canonical?_of_resolve {context name canonical : String} {shape : Shape}
    (h : table.resolve name context = .ok (canonical, shape)) :
    table.canonical? name = some canonical := by
  have hresolve : table.resolve name "" = .ok (canonical, shape) := resolveFrom_context h ""
  rw [canonical?, hresolve]

theorem resolve_of_canonical? {name canonical : String} (context : String)
    (h : table.canonical? name = some canonical) :
    ∃ shape, table.resolve name context = .ok (canonical, shape) := by
  unfold canonical? at h
  split at h
  · rename_i shape hr
    cases h
    exact ⟨shape, resolveFrom_context hr context⟩
  · cases h

/-- The field names of a record of the table are distinct. -/
theorem nodup_of_record {name : String} {fields : List (String × Ref)}
    (hg : table.get? name = some (.type (.record fields))) : (Fields.names fields).Nodup :=
  (table.distinct_fields _ (get?_eq_some_iff.mp hg)).1

end CopySynth.Table
