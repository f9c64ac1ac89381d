import CopySynth.Reader.Expression

/-!
# A language to run

A reader that tables can be checked and code be written out with. It stands in for the parser of the
generated code's own language, which is a library: what is shown for every `Language` needs nothing
of it, and it serves only where something has to be computed, for a given table.

It reads the tokens of the language, identifiers, types and expressions; the types are paths,
references, pointers, arrays, slices, tuples, bounds of interfaces, rules and the two marks for any
and for no type. Left out are the types of functions (`fn(u8) -> u8`, also behind `unsafe`, `extern`
or `for`), and of the expressions: conditions, selections and loops other than `loop` (`if`, `match`,
`while`, `for`), `let`, labels and the jumps to them, functions without a name that are `async`,
`static`, introduce lifetimes or name the type of their result, patterns other than names and
references to them as parameters, and statements that are declarations.
-/

namespace CopySynth.Reader

open Code

/-- The language as far as it is read here. -/
def language : Language where
  identifier? := identifier?
  type? := type?
  expr? := expr?

/-! ## An identifier is a type -/

section Words

variable {word : String}

theorem pathKeywords_subset : pathKeywords ⊆ keywords := by decide

theorem segment_word (h : word ∉ keywords) (depth : Nat) :
    segment (depth + 1) false [.word word] = some ({ head := [.word word] }, []) := by
  have hpath : word ∉ pathKeywords := fun hc => h (pathKeywords_subset hc)
  have hno : argumentsFollow false [] = false := rfl
  rw [segment, if_neg hpath, if_neg fun hc => h hc.1, hno]
  rfl

theorem path_word (h : word ∉ keywords) (depth : Nat) :
    path (depth + 3) false [.word word] = some ({ head := [.word word] }, []) := by
  rw [path, segments, segment_word h]
  rfl

theorem type_word (h : word ∉ keywords) (depth : Nat) (plus : Bool) :
    type (depth + 4) plus [.word word] = some (⟨[.word word], .name⟩, []) := by
  rw [type, path_word h]
  · cases plus <;> rfl
  -- all words that begin another kind of type are keywords
  all_goals first
    | simp; done
    | rintro _ ⟨⟩; exact h (by decide)

end Words

theorem type?_of_identifier {text word : String} (h : identifier? text = some word) :
    type? text = some [.word word] := by
  obtain ⟨htokens, hword⟩ := identifier?_eq_some_iff.mp h
  have hread : type (depthFor [.word word]) true [.word word] =
      some (⟨[.word word], .name⟩, []) := type_word hword 44 true
  rw [type?, htokens]
  simp only [Option.bind_eq_bind, Option.bind_some, hread]

theorem lawful_language : language.Lawful where
  noKeyword _ _ h := (identifier?_eq_some_iff.mp h).2
  type text word h := by
    rw [show language.type? text = _ from type?_of_identifier h]
    rfl

end CopySynth.Reader
