import CopySynth.Code.Expr

/-!
# How operators group

An expression is read by its operators' levels: what an operator takes as its right operand ends in
front of the first operator that does not bind tighter. A comparison of a comparison is refused, and
a range is no left operand. What operands and types look like is left to a grammar, a parameter.
-/

namespace CopySynth.Code

/-- A reader of a piece of code. It takes tokens from the front of a list and returns what it has
read with the tokens that follow, or nothing when the list begins otherwise. -/
abbrev Read (α : Type) := List Token → Option (α × List Token)

/-- How the pieces of expressions are read that operators join. -/
structure Grammar where
  /-- Reads an operand: what stands between operators, with its signs and all that extends it. -/
  operand : Read Expr
  /-- Reads what extends an operand at its end: fields, calls, elements. -/
  extend : Expr → Read Expr
  /-- Reads the type that an operand is converted to. -/
  type : Read (List Token)

/-! ## What an operand is followed by -/

/-- Whether nothing is left before the next closing bracket. -/
def atEnd : List Token → Bool
  | [] | .closing _ :: _ => true
  | _ => false

/-- Whether the tokens begin with a single point. -/
def beginsPoint (tokens : List Token) : Bool := begins "." tokens && !begins ".." tokens

/-- Whether the tokens begin with this word. -/
def beginsWord (word : String) : List Token → Bool
  | .word text :: _ => text == word
  | _ => false

/-- The level of the operator the tokens begin with, zero if there is none. -/
def nextLevel (tokens : List Token) : Level :=
  match BinaryOp.read? tokens with
  | some (op, _) => op.level
  | none =>
    if begins ".." tokens then Level.range
    else if beginsWord "as" tokens then Level.cast
    else 0

/-- Reads the sign of a range: with its upper bound or without. -/
def rangeSign : Read Bool := fun tokens =>
  match after "..=" tokens with
  | some rest => some (true, rest)
  | none => if begins "..." tokens then none else (after ".." tokens).map fun rest => (false, rest)

/-- Whether a range without upper bound ends here. -/
def endsRange (tokens : List Token) : Bool :=
  atEnd tokens || beginsPoint tokens || beginsWord "as" tokens ||
    [",", ";", "?", "=>", "=", "+", "/", "%", "^", ">", "<=", "!=", "-=", "*=", "&=", "|=",
      "<<="].any (begins · tokens)

/-- Whether the tokens go on as no converted operand can. -/
def refusesCast (tokens : List Token) : Bool :=
  beginsPoint tokens || begins "?" tokens ||
    (match tokens with
      | .opening .square :: _ | .opening .round :: _ => true
      | _ => false)

/-! ## Operators and their operands -/

namespace Grammar

variable (grammar : Grammar)

mutual

/-- Extends a left operand by the operators of this level and above that follow it. The first
argument of each reader bounds the number of its turns. -/
def climb : Nat → Level → Expr → Read Expr
  | 0, _, _, _ => none
  | turns + 1, level, left, tokens =>
    if left.isRange then some (left, tokens)
    else match BinaryOp.read? tokens with
      | some (op, rest) =>
        if op.level < level then some (left, tokens)
        else if op.level = Level.compare ∧ left.isComparison then none
        else do
          let (right, rest) ← rightOperand turns op.level rest
          climb turns level (.binary op left right) rest
      | none =>
        if level ≤ Level.range ∧ begins ".." tokens then do
          let (inclusive, rest) ← rangeSign tokens
          let (upper, rest) ← upperBound turns inclusive rest
          climb turns level (.range inclusive (some left) upper) rest
        else match tokens with
          | .word "as" :: rest => do
            let (target, rest) ← grammar.type rest
            if refusesCast rest then none
            else climb turns level (.cast left target) rest
          | _ => some (left, tokens)

/-- Reads the right operand of an operator of this level. -/
def rightOperand : Nat → Level → Read Expr
  | 0, _, _ => none
  | turns + 1, level, tokens => do
    let (right, rest) ← grammar.operand tokens
    absorb turns level right rest

/-- Extends a right operand by the operators that bind tighter than this level. -/
def absorb : Nat → Level → Expr → Read Expr
  | 0, _, _, _ => none
  | turns + 1, level, right, tokens =>
    let next := nextLevel tokens
    if level < next ∨ (level = next ∧ next = Level.assign) then do
      let (wider, rest) ← climb turns next right tokens
      if rest.length = tokens.length then some (wider, rest) else absorb turns level wider rest
    else some (right, tokens)

/-- Reads the upper bound of a range; one that excludes its bound may have none. -/
def upperBound : Nat → Bool → Read (Option Expr)
  | 0, _, _ => none
  | turns + 1, inclusive, tokens =>
    if !inclusive && endsRange tokens then some (none, tokens)
    else do
      let (upper, rest) ← rightOperand turns Level.range tokens
      some (some upper, rest)

end

/-- Each operator takes a token and at most four turns. -/
def turnsFor (tokens : List Token) : Nat := 4 * (tokens.length + 1)

/-- Reads an expression. -/
def expr : Read Expr := fun tokens => do
  let (left, rest) ← grammar.operand tokens
  grammar.climb (turnsFor rest) 0 left rest

/-- Whether the tokens of an expression are read as the expression. -/
def ReadsBack (expr : Expr) : Prop := grammar.expr expr.tokens = some (expr, [])

/-- Reads what stands in the brackets of a call without arguments or with one, after the opening
bracket and with the closing one. -/
def argument (tokens : List Token) : Option (List Expr × List Token) :=
  match tokens with
  | .closing .round :: rest => some ([], rest)
  | _ => do
    let (arg, rest) ← grammar.expr tokens
    match rest with
    | .closing .round :: rest => some ([arg], rest)
    | _ => none

end Grammar

end CopySynth.Code
