import CopySynth.Code.Token

/-!
# Binary operators

Each operator has its symbol and its level: operators of a higher level bind tighter. All operators
of a level group to the left, except assignments, which group to the right, and comparisons, which
do not group at all.
-/

namespace CopySynth.Code

/-- A binary operator. -/
inductive BinaryOp where
  | mul | div | rem
  | add | sub
  | shl | shr
  | bitAnd | bitXor | bitOr
  | eq | ne | lt | le | gt | ge
  | and | or
  | assign
  | addAssign | subAssign | mulAssign | divAssign | remAssign
  | xorAssign | andAssign | orAssign | shlAssign | shrAssign
  deriving DecidableEq, Repr

/-- How tightly a piece of an expression binds. -/
abbrev Level := Nat

namespace Level

/-- Assignments. -/
def assign : Level := 1

/-- Ranges. -/
def range : Level := 2

/-- Comparisons. -/
def compare : Level := 6

/-- Conversions to a type. -/
def cast : Level := 13

end Level

namespace BinaryOp

/-- The operator's symbol. -/
def text : BinaryOp → String
  | mul => "*" | div => "/" | rem => "%"
  | add => "+" | sub => "-"
  | shl => "<<" | shr => ">>"
  | bitAnd => "&" | bitXor => "^" | bitOr => "|"
  | eq => "==" | ne => "!=" | lt => "<" | le => "<=" | gt => ">" | ge => ">="
  | and => "&&" | or => "||"
  | assign => "="
  | addAssign => "+=" | subAssign => "-=" | mulAssign => "*=" | divAssign => "/="
  | remAssign => "%=" | xorAssign => "^=" | andAssign => "&=" | orAssign => "|="
  | shlAssign => "<<=" | shrAssign => ">>="

/-- The operator's level. -/
def level : BinaryOp → Level
  | mul | div | rem => 12
  | add | sub => 11
  | shl | shr => 10
  | bitAnd => 9
  | bitXor => 8
  | bitOr => 7
  | eq | ne | lt | le | gt | ge => Level.compare
  | and => 4
  | or => 3
  | assign | addAssign | subAssign | mulAssign | divAssign | remAssign
  | xorAssign | andAssign | orAssign | shlAssign | shrAssign => Level.assign

/-- The operators, such that one whose symbol begins with another's comes first. -/
def byLength : List BinaryOp :=
  [shlAssign, shrAssign, addAssign, subAssign, mulAssign, divAssign, remAssign, xorAssign,
    andAssign, orAssign, and, or, shl, shr, eq, le, ne, ge, add, sub, mul, div, rem, bitXor,
    bitAnd, bitOr, lt, gt, assign]

end BinaryOp

/-- What follows a symbol of these characters, if the tokens begin with it. -/
def afterChars : List Char → List Token → Option (List Token)
  | [], tokens => some tokens
  | [c], .symbol d _ :: rest => if c = d then some rest else none
  | c :: chars, .symbol d true :: rest => if c = d then afterChars chars rest else none
  | _, _ => none

/-- What follows this symbol, if the tokens begin with it. -/
def after (text : String) (tokens : List Token) : Option (List Token) :=
  afterChars text.toList tokens

/-- Whether the tokens begin with this symbol. -/
def begins (text : String) (tokens : List Token) : Bool := (after text tokens).isSome

/-- Reads a binary operator. An arrow with two strokes is none. -/
def BinaryOp.read? (tokens : List Token) : Option (BinaryOp × List Token) :=
  if begins "=>" tokens then none
  else BinaryOp.byLength.findSome? fun op => (after op.text tokens).map fun rest => (op, rest)

end CopySynth.Code
