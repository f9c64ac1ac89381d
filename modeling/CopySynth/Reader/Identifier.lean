import CopySynth.Code.Language
import CopySynth.Reader.Lexer

/-!
# Identifiers

A text is read as an identifier when exactly one word is left of it once white space and comments
are gone, and that word is no keyword. What is written out is the bare word, so two texts may be
read as the same identifier.
-/

namespace CopySynth.Reader

/-- The bare word of a text that is an identifier. -/
def identifier? (text : String) : Option String :=
  match Lexer.tokens? text with
  | some [.word name] => if name ∈ Code.keywords then none else some name
  | _ => none

theorem identifier?_eq_some_iff {text name : String} :
    identifier? text = some name ↔
      Lexer.tokens? text = some [.word name] ∧ name ∉ Code.keywords := by
  unfold identifier?
  split <;> simp_all
  · exact ⟨fun h => ⟨h.2, h.2 ▸ h.1⟩, fun h => ⟨h.1 ▸ h.2, h.1⟩⟩

end CopySynth.Reader
