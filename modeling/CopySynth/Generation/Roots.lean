/-!
# Requested names

Requested names are taken in ascending order, each once, so that a run does not depend on the order
or the repetition of requests.
-/

namespace CopySynth

/-- Puts a name in its place among ascending names, unless it is there. -/
def insertAscending (name : String) : List String → List String
  | [] => [name]
  | first :: rest =>
    if name < first then name :: first :: rest
    else if name = first then first :: rest
    else first :: insertAscending name rest

/-- The names in ascending order of their characters, each once. -/
def ascending (names : List String) : List String := names.foldr insertAscending []

theorem mem_insertAscending {name other : String} {names : List String} :
    other ∈ insertAscending name names ↔ other = name ∨ other ∈ names := by
  induction names with
  | nil => simp [insertAscending]
  | cons first rest ih =>
    unfold insertAscending
    split
    · simp
    · split
      · rename_i same
        subst same
        simp
      · simp only [List.mem_cons, ih]
        constructor <;> rintro (h | h | h) <;> simp [h]

theorem mem_ascending {name : String} {names : List String} :
    name ∈ ascending names ↔ name ∈ names := by
  induction names with
  | nil => simp [ascending]
  | cons first rest ih =>
    rw [ascending, List.foldr_cons, ← ascending, mem_insertAscending, ih, List.mem_cons]

example : ascending ["b", "a", "b"] = ["a", "b"] := by decide

end CopySynth
