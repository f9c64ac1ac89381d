import CopySynth.Code.Language
import CopySynth.Generation.Error

/-!
# Names and literals in generated code

A name is written as the bare identifier it is read as, a type and a zero expression as the tokens
they are read as. What the language does not read is refused by name.
-/

namespace CopySynth.Emission

open Code (Language)

/-- The identifier that a name is written as. -/
def identifier (language : Language) (name : String) : Except GenerationError String :=
  match language.identifier? name with
  | some word => .ok word
  | none => .error (.invalidIdentifier name)

/-- The tokens that a type's name is written as. -/
def typeTokens (language : Language) (name : String) :
    Except GenerationError (List Code.Token) :=
  match language.type? name with
  | some tokens => .ok tokens
  | none => .error (.invalidIdentifier name)

/-- The expression that a zero literal is written as. -/
def literal (language : Language) (text : String) : Except GenerationError Code.Expr :=
  match language.expr? text with
  | some expr => .ok expr
  | none => .error (.invalidExpression text)

section

variable {language : Language} {name word text : String}

theorem identifier_eq_ok_iff :
    identifier language name = .ok word ↔ language.identifier? name = some word := by
  unfold identifier
  split <;> simp_all

theorem literal_eq_ok_iff {expr : Code.Expr} :
    literal language text = .ok expr ↔ language.expr? text = some expr := by
  unfold literal
  split <;> simp_all

theorem typeTokens_eq_ok_iff {tokens : List Code.Token} :
    typeTokens language name = .ok tokens ↔ language.type? name = some tokens := by
  unfold typeTokens
  split <;> simp_all

end

end CopySynth.Emission
