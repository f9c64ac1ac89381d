import CopySynth.Code.Grammar
import CopySynth.Code.Language

/-!
# The laws of a grammar

What is assumed of the readers of operands and types, which the grouping of operators leaves open. An
operand takes a token, and what it leaves is not a part of it; it is read again when it stands in
front of a boundary. And the few kinds of operands that generated code is made of are read as what
they are.
-/

namespace CopySynth.Code

variable {s t r : List Token}

/-! ## Edges of expressions -/

namespace Expr

/-- Whether all operators at the left edge of the expression bind tighter than a comparison. -/
def tight : Expr → Bool
  | .binary op left _ => Level.compare < op.level && left.tight
  | .cast operand _ => operand.tight
  | .range _ (some _) _ => false
  | _ => true

/-- Whether nothing that binds at least as tightly as a conjunction can become a part of the
expression at its right end. -/
def closed : Expr → Bool
  | .unary _ operand | .borrow _ operand | .binary _ _ operand | .led _ operand => operand.closed
  | .range _ _ _ | .closure _ _ _ _ | .jump _ _ => false
  | _ => true

/-- Whether an operator joins the expression to the one at its left edge. -/
def joins : Expr → Bool
  | .binary _ _ _ | .cast _ _ | .range _ (some _) _ => true
  | _ => false

mutual
/-- Whether the right operands of comparisons are tight and the left operands of conjunctions are
closed, in the expression, in the arguments of its method and in the body of its function. -/
def grouped : Expr → Bool
  | .binary op left right =>
    (op.level != Level.compare || right.tight) && (op != .and || left.closed) &&
      left.grouped && right.grouped
  | .method _ _ _ args _ => allGrouped args
  | .closure _ _ _ body => body.grouped
  | _ => true

/-- Whether each of the expressions is grouped. -/
def allGrouped : List Expr → Bool
  | [] => true
  | expr :: rest => expr.grouped && allGrouped rest
end

theorem tight_of_joins {e : Expr} (h : e.joins = false) : e.tight := by
  cases e with
  | binary | cast => cases h
  | range _ lower _ =>
    cases lower with
    | none => rfl
    | some => cases h
  | _ => rfl

theorem isRange_of_closed {e : Expr} (h : e.closed) : e.isRange = false := by
  cases e with
  | range => cases h
  | _ => rfl

end Expr

/-! ## What stands behind an operand -/

/-- What may stand behind an operand: nothing, a closing bracket, or the next part of a
conjunction. -/
inductive Boundary : List Token → Prop where
  | nothing : Boundary []
  | bracket (found : Bracket) (rest : List Token) : Boundary (.closing found :: rest)
  | conjunct (joined : Bool) (rest : List Token) :
      Boundary (.symbol '&' true :: .symbol '&' joined :: rest)

/-- What may stand behind a place whose value is used: a field, a call or a comparison. -/
inductive Follows : List Token → Prop where
  | point (rest : List Token) : Follows (.symbol '.' false :: rest)
  | equals (rest : List Token) : Follows (Token.operator "==" ++ rest)

/-- Whether the end of these tokens can be told from what stands behind them: they are not used up,
or even a whole expression ends here. -/
def Ends (t s : List Token) : Prop := t ≠ [] ∨ atEnd s

/-- What is read, when these tokens stand behind the rest. -/
def before {α : Type} (s : List Token) (read : α × List Token) : α × List Token :=
  (read.1, read.2 ++ s)

/-- Whether a token names a field: a word that is no keyword, or the number of the first field. -/
def Token.namesField : Token → Bool
  | .word text => text ∉ keywords
  | .literal text => text == "0"
  | _ => false

namespace Grammar

/-! ## Laws -/

/-- What every operand and every type has: it takes a token, and it is read to its end. -/
structure Steady (grammar : Grammar) : Prop where
  /-- An operand takes a token. -/
  operand_takes : ∀ t e r, grammar.operand t = some (e, r) → r.length < t.length
  /-- A type takes a token. -/
  type_takes : ∀ t type r, grammar.type t = some (type, r) → r.length < t.length
  /-- No operator joins an operand to another. -/
  operand_single : ∀ t e r, grammar.operand t = some (e, r) → e.joins = false
  /-- The expressions inside an operand are grouped by their operators, too. -/
  operand_grouped : ∀ t e r, grammar.operand t = some (e, r) → e.grouped
  /-- A conjunction goes on only behind an operand that is closed. -/
  operand_sealed : ∀ t e r, grammar.operand t = some (e, r) → begins "&&" r → e.closed

/-- What one grammar reads another reads, too, when these tokens follow and the end of an operand
can be told from them. -/
structure Carries (s : List Token) (grammar wider : Grammar) : Prop where
  operand : ∀ t e r, grammar.operand t = some (e, r) → Ends r s ∨ e.closed →
    wider.operand (t ++ s) = some (e, r ++ s)
  type : ∀ t type r, grammar.type t = some (type, r) → wider.type (t ++ s) = some (type, r ++ s)

/-- How the operands are read that generated code is made of. -/
structure Writes (grammar : Grammar) : Prop where
  /-- A name is an operand, and what follows extends it. -/
  name : ∀ word r read, word = "self" ∨ word ∉ keywords → Follows r →
    grammar.extend (.name word) r = some read → grammar.operand (.word word :: r) = some read
  /-- A literal is an operand. -/
  literal : ∀ text s, Boundary s → grammar.operand (.literal text :: s) = some (.literal text, s)
  /-- A star is a sign. -/
  star : ∀ t e r, grammar.operand t = some (e, r) →
    grammar.operand (.symbol '*' false :: t) = some (.unary '*' e, r)
  /-- A function of one variable has an expression as its body. -/
  function : ∀ word t body r, word ∉ keywords → grammar.expr t = some (body, r) → atEnd r →
    grammar.operand (.symbol '|' false :: .word word :: .symbol '|' false :: t) =
      some (.function word body, r)
  /-- A path of two names is called. -/
  callOf : ∀ owner function s, owner = "Self" ∨ owner ∉ keywords → function ∉ keywords →
    Boundary s → grammar.operand ((Expr.callOf owner function).tokens ++ s) =
      some (.callOf owner function, s)
  /-- An operand is extended by a field. -/
  field : ∀ e token r read, e.isRange = false → token.namesField → Follows r →
    grammar.extend (.field e token) r = some read →
    grammar.extend e (.symbol '.' false :: token :: r) = some read
  /-- An operand is extended by the call of a method. -/
  call : ∀ e word t args r read, e.isRange = false → word ∉ keywords →
    grammar.argument t = some (args, r) → grammar.extend (e.send word args) r = some read →
    grammar.extend e (.symbol '.' false :: .word word :: .opening .round :: t) = some read
  /-- Nothing extends an operand in front of a boundary. -/
  ends : ∀ e s, Boundary s → grammar.extend e s = some (e, s)
  /-- Nothing extends an operand in front of a comparison. -/
  compared : ∀ e r, grammar.extend e (Token.operator "==" ++ r) =
    some (e, Token.operator "==" ++ r)

/-- The laws of a grammar. -/
structure Lawful (grammar : Grammar) : Prop where
  steady : grammar.Steady
  carries : ∀ s, Boundary s → grammar.Carries s grammar
  writes : grammar.Writes

/-- The grammar reads what code shows of the texts of a language. -/
structure Shows (grammar : Grammar) (language : Language) : Prop where
  /-- An expression is read back from the tokens that code shows of it. -/
  expr : ∀ text e, language.expr? text = some e → grammar.ReadsBack e
  /-- The default value of a type is an operand. -/
  type : ∀ text type s, language.type? text = some type → Boundary s →
    grammar.operand ((Expr.defaultOf type).tokens ++ s) = some (.defaultOf type, s)

end Grammar

end CopySynth.Code
