import Mathlib.Data.List.Nodup

/-!
# First occurrences

A list without its later repetitions: each name stands where it came up first. The order of a queue
that takes every name once is stated through it.
-/

namespace CopySynth

/-- Every name stands once. -/
theorem nodup_eraseDups (xs : List String) : xs.eraseDups.Nodup := by
  match xs with
  | [] => simp
  | x :: xs =>
    rw [List.eraseDups_cons, List.nodup_cons]
    exact ⟨by simp [List.mem_eraseDups], nodup_eraseDups _⟩
termination_by xs.length
decreasing_by exact Nat.lt_succ_of_le (List.length_filter_le _ _)

/-- One more name stands at the end, unless it came up before. -/
theorem eraseDups_concat (xs : List String) (x : String) :
    (xs ++ [x]).eraseDups = if x ∈ xs then xs.eraseDups else xs.eraseDups ++ [x] := by
  rw [List.eraseDups_append]
  by_cases h : x ∈ xs <;> simp [List.removeAll, h, List.eraseDups_cons]

theorem eraseDups_of_nodup {xs : List String} (h : xs.Nodup) : xs.eraseDups = xs := by
  induction xs with
  | nil => rfl
  | cons x xs ih =>
    rw [List.nodup_cons] at h
    rw [List.eraseDups_cons, List.filter_eq_self.mpr, ih h.2]
    intro y hy
    simpa using ne_of_mem_of_not_mem hy h.1

/-- Names that came up before leave no trace. -/
theorem eraseDups_append_of_subset {xs ys : List String} (h : ∀ y ∈ ys, y ∈ xs) :
    (xs ++ ys).eraseDups = xs.eraseDups := by
  have hnone : ys.removeAll xs = [] := by
    rw [List.removeAll, List.filter_eq_nil_iff]
    intro y hy
    simpa using h y hy
  rw [List.eraseDups_append, hnone]
  simp

/-- After some names, distinct names stand as far as they are new. -/
theorem eraseDups_append_of_nodup {xs ys : List String} (h : ys.Nodup) :
    (xs ++ ys).eraseDups = xs.eraseDups ++ ys.filter (· ∉ xs) := by
  have hrest : ys.removeAll xs = ys.filter (· ∉ xs) := by
    simp [List.removeAll]
  rw [List.eraseDups_append, hrest, eraseDups_of_nodup (h.filter _)]

end CopySynth
