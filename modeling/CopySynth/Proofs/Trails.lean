import CopySynth.Proofs.HeldTypes
import CopySynth.Schema.Validation
import Mathlib.Data.List.Chain

/-!
# Trails through a table

Two walks follow the types of a table depth first: the check for types that hold themselves, and the
classifier. Both keep the path from where they started and stop when it would close. A trail is the
state of such a walk: distinct names each of which leads to the next. The steps left are enough,
since a path holds distinct names of the table.
-/

namespace CopySynth.Table

/-- A closed walk along held types: it ends where it starts, and passes no other name twice. -/
structure Circle (table : Table) (path : List String) : Prop where
  closed : ∃ name inner, path = name :: (inner ++ [name])
  once : path.dropLast.Nodup
  linked : path.IsChain table.Holds

/-- A walk has come along `path` to `name`, from each name to one it leads to. The steps left make
up for the names of the table that are not on the path. -/
structure Trail (table : Table) (R : String → String → Prop) (steps : Nat) (path : List String)
    (name : String) : Prop where
  once : path.Nodup
  linked : (path ++ [name]).IsChain R
  bound : steps + path.length = table.size + 1

variable {table : Table} {R : String → String → Prop} {steps : Nat} {path : List String}
  {name next : String}

theorem Trail.start (name : String) : table.Trail R (table.size + 1) [] name :=
  ⟨List.nodup_nil, List.isChain_singleton name, by simp⟩

/-- A walk goes on from a name that is not on its path. -/
theorem Trail.extend (h : table.Trail R (steps + 1) path name) (hn : name ∉ path)
    (hr : R name next) : table.Trail R steps (path ++ [name]) next := by
  refine ⟨?_, ?_, ?_⟩
  · rw [List.nodup_append]
    refine ⟨h.once, List.nodup_singleton name, ?_⟩
    rintro a ha b hb rfl
    exact hn (List.mem_singleton.mp hb ▸ ha)
  · rw [List.append_assoc]
    exact List.isChain_append_cons_cons.mpr ⟨h.linked, hr, List.isChain_singleton next⟩
  · have := h.bound
    rw [List.length_append, List.length_singleton]
    omega

theorem transGen_of_isChain {rest : List String} (h : (name :: (rest ++ [next])).IsChain R) :
    Relation.TransGen R name next := by
  induction rest generalizing name with
  | nil => exact .single (List.isChain_pair.mp h)
  | cons first rest ih =>
    rw [List.cons_append, List.isChain_cons_cons] at h
    exact .head h.1 (ih h.2)

/-- Every name on the path leads to where the walk is. -/
theorem Trail.reaches (h : table.Trail R steps path name) {other : String} (ho : other ∈ path) :
    Relation.TransGen R other name := by
  obtain ⟨before, after, rfl⟩ := List.append_of_mem ho
  have hl := h.linked
  rw [List.append_assoc, List.cons_append, List.isChain_split] at hl
  exact transGen_of_isChain hl.2

theorem Trail.subset (h : table.Trail R steps path name) (hR : ∀ a b, R a b → a ∈ table.names) :
    path ⊆ table.names := by
  intro other ho
  obtain ⟨next, hr, _⟩ := Relation.TransGen.head'_iff.mp (h.reaches ho)
  exact hR other next hr

/-- A walk never runs out of steps. -/
theorem Trail.exists_steps (h : table.Trail R steps path name)
    (hR : ∀ a b, R a b → a ∈ table.names) : ∃ further, steps = further + 1 := by
  have hlength := length_le_size h.once (h.subset hR)
  have := h.bound
  exact ⟨steps - 1, by omega⟩

/-- When a walk comes back to its path, it closes a circle. -/
theorem Trail.circle (h : table.Trail table.Holds steps path name) (hn : name ∈ path) :
    table.Circle (closedPath path name) := by
  obtain ⟨before, after, rfl, hbefore⟩ := List.eq_append_cons_of_mem hn
  have hclosed : closedPath (before ++ name :: after) name = name :: (after ++ [name]) := by
    rw [closedPath, List.append_assoc, List.dropWhile_append_of_pos, List.cons_append,
      List.dropWhile_cons_of_neg (by simp)]
    intro other ho
    simpa using ne_of_mem_of_not_mem ho hbefore
  rw [hclosed]
  refine ⟨⟨name, after, rfl⟩, ?_, ?_⟩
  · rw [← List.cons_append, List.dropLast_concat]
    exact (List.nodup_append.mp h.once).2.1
  · have hl := h.linked
    rw [List.append_assoc, List.cons_append, List.isChain_split] at hl
    exact hl.2

theorem Circle.transGen {path : List String} (h : table.Circle path) :
    ∃ name, Relation.TransGen table.Holds name name := by
  obtain ⟨name, inner, rfl⟩ := h.closed
  exact ⟨name, transGen_of_isChain h.linked⟩

end CopySynth.Table
