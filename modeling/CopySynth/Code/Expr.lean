import CopySynth.Code.Operator

/-!
# Expressions

The syntax of expressions, as far as it matters which operators join them and what stands at their
edges. Types, paths and whatever else has no operators of its own are kept as tokens. An expression
is written out piece by piece, with no brackets but its own.
-/

namespace CopySynth.Code

mutual
/-- An expression. -/
inductive Expr where
  /-- A literal, exactly as written. -/
  | literal (text : String)
  /-- A name or a path. -/
  | path (tokens : List Token)
  /-- A sign before its operand. -/
  | unary (sign : Char) (operand : Expr)
  /-- A reference to its operand, with the words that stand before it. -/
  | borrow (words : List String) (operand : Expr)
  /-- Two operands of an operator. -/
  | binary (op : BinaryOp) (left right : Expr)
  /-- A range, with or without its bounds. -/
  | range (inclusive : Bool) (lower upper : Option Expr)
  /-- A conversion to a type. -/
  | cast (operand : Expr) (type : List Token)
  /-- A call; `trailing` tells whether a comma stands after the last argument. -/
  | call (function : Expr) (args : List Expr) (trailing : Bool)
  /-- A call of a method, with its generic arguments if it has some. -/
  | method (receiver : Expr) (name : String) (generics : List Token) (args : List Expr)
      (trailing : Bool)
  /-- A field, by its name or its number. -/
  | field (receiver : Expr) (member : Token)
  /-- An element. -/
  | index (receiver position : Expr)
  /-- An expression that hands failure on. -/
  | attempt (operand : Expr)
  /-- An expression in round brackets. -/
  | group (inner : Expr)
  /-- A tuple. -/
  | tuple (items : List Expr) (trailing : Bool)
  /-- An array, element by element. -/
  | array (items : List Expr) (trailing : Bool)
  /-- An array of equal elements. -/
  | filled (item length : Expr)
  /-- A record, field by field. -/
  | record (path : List Token) (members : List Member) (trailing : Bool)
  /-- A named rule applied to the tokens in its brackets. -/
  | invocation (path : List Token) (bracket : Bracket) (body : List Token)
  /-- Words that leave the place they stand in, with the value they take along if there is one. -/
  | jump (words : List Token) (value : Option Expr)
  /-- Statements in curly brackets, with the words that stand before them. -/
  | block (words : List String) (statements : List Statement)
  /-- An expression behind what leads it in: attributes, words of a function, a pattern. -/
  | led (lead : List Token) (operand : Expr)
  /-- A function without a name whose body ends it. -/
  | closure (owning : Bool) (parameters : List (List Token)) (trailing : Bool) (body : Expr)
  /-- An expression of another form, which its last token ends: a condition, a selection, a loop. -/
  | other (tokens : List Token)

/-- A member of a record expression. -/
inductive Member where
  /-- A field and its value. -/
  | named (name : String) (value : Expr)
  /-- A field whose value is the variable of its name. -/
  | same (name : String)
  /-- The record all other fields are taken from, if it is named. -/
  | rest (value : Option Expr)
  /-- A field behind its attributes. -/
  | attributed (attributes : List Token) (member : Member)

/-- A statement of a block. -/
inductive Statement where
  /-- Attributes of the block itself, which stand before its other statements. -/
  | attributes (tokens : List Token)
  /-- A semicolon without an expression. -/
  | empty
  /-- An expression, and whether a semicolon ends it. -/
  | plain (value : Expr) (ended : Bool)
end

mutual
/-- The tokens of an expression. -/
def Expr.tokens : Expr → List Token
  | .literal text => [.literal text]
  | .path tokens | .other tokens => tokens
  | .unary sign operand => .symbol sign false :: operand.tokens
  | .borrow words operand => .symbol '&' false :: words.map Token.word ++ operand.tokens
  | .binary op left right => left.tokens ++ Token.operator op.text ++ right.tokens
  | .range inclusive lower upper =>
    Expr.optionTokens lower ++ Token.operator (if inclusive then "..=" else "..") ++
      Expr.optionTokens upper
  | .cast operand type => operand.tokens ++ .word "as" :: type
  | .call function args trailing =>
    function.tokens ++ Token.enclosed .round (Token.commaSeparated trailing (Expr.listTokens args))
  | .method receiver name generics args trailing =>
    receiver.tokens ++ .symbol '.' false :: .word name :: generics ++
      Token.enclosed .round (Token.commaSeparated trailing (Expr.listTokens args))
  | .field receiver member => receiver.tokens ++ [.symbol '.' false, member]
  | .index receiver position => receiver.tokens ++ Token.enclosed .square position.tokens
  | .attempt operand => operand.tokens ++ [.symbol '?' false]
  | .group inner => Token.enclosed .round inner.tokens
  | .tuple items trailing =>
    Token.enclosed .round (Token.commaSeparated trailing (Expr.listTokens items))
  | .array items trailing =>
    Token.enclosed .square (Token.commaSeparated trailing (Expr.listTokens items))
  | .filled item length =>
    Token.enclosed .square (item.tokens ++ .symbol ';' false :: length.tokens)
  | .record path members trailing =>
    path ++ Token.enclosed .curly (Token.commaSeparated trailing (Expr.memberTokens members))
  | .invocation path bracket body => path ++ .symbol '!' false :: Token.enclosed bracket body
  | .jump words value => words ++ Expr.optionTokens value
  | .block words statements =>
    words.map Token.word ++ Token.enclosed .curly (Expr.statementTokens statements)
  | .led lead operand => lead ++ operand.tokens
  | .closure owning parameters trailing body =>
    (if owning then [.word "move"] else []) ++ .symbol '|' false ::
      Token.commaSeparated trailing parameters ++ .symbol '|' false :: body.tokens

/-- The tokens of an expression that may be absent. -/
def Expr.optionTokens : Option Expr → List Token
  | none => []
  | some expr => expr.tokens

/-- The tokens of each expression. -/
def Expr.listTokens : List Expr → List (List Token)
  | [] => []
  | expr :: rest => expr.tokens :: Expr.listTokens rest

/-- The tokens of a member. -/
def Member.tokens : Member → List Token
  | .named name value => .word name :: .symbol ':' false :: value.tokens
  | .same name => [.word name]
  | .rest value => Token.operator ".." ++ Expr.optionTokens value
  | .attributed attributes member => attributes ++ member.tokens

/-- The tokens of each member. -/
def Expr.memberTokens : List Member → List (List Token)
  | [] => []
  | member :: rest => member.tokens :: Expr.memberTokens rest

/-- The tokens of a statement. -/
def Statement.tokens : Statement → List Token
  | .attributes tokens => tokens
  | .empty => [.symbol ';' false]
  | .plain value ended => value.tokens ++ if ended then [.symbol ';' false] else []

/-- The tokens of statements. -/
def Expr.statementTokens : List Statement → List Token
  | [] => []
  | statement :: rest => statement.tokens ++ Expr.statementTokens rest
end

namespace Expr

/-- The name of a variable or a type. -/
def name (name : String) : Expr := .path [.word name]

/-- A method without generic arguments. -/
def send (receiver : Expr) (method : String) (args : List Expr) : Expr :=
  .method receiver method [] args false

/-- A function of one variable. -/
def function (parameter : String) (body : Expr) : Expr :=
  .closure false [[.word parameter]] false body

/-- A path of two names, called without arguments. -/
def callOf (owner function : String) : Expr :=
  .call (.path (.word owner :: Token.operator "::" ++ [.word function])) [] false

/-- The value that a type in angle brackets has by default. -/
def defaultOf (type : List Token) : Expr :=
  .call (.path (.symbol '<' false :: type ++ .symbol '>' false ::
    Token.operator "::" ++ [.word "default"])) [] false

/-- Whether an expression is a range. -/
def isRange : Expr → Bool
  | .range _ _ _ => true
  | _ => false

/-- Whether an expression is a comparison. -/
def isComparison : Expr → Bool
  | .binary op _ _ => op.level == Level.compare
  | _ => false

end Expr

end CopySynth.Code
