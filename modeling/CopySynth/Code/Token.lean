/-!
# Tokens of code

Code is a list of tokens. Written out, tokens are separated by one space, except after a symbol
that is joined to the next one and just inside round and square brackets.
-/

namespace CopySynth.Code

/-- A kind of bracket. -/
inductive Bracket where
  | round
  | square
  | curly
  deriving DecidableEq, Repr

/-- The opening bracket as text. -/
def Bracket.openText : Bracket → String
  | .round => "("
  | .square => "["
  | .curly => "\x7b"

/-- The closing bracket as text. -/
def Bracket.closeText : Bracket → String
  | .round => ")"
  | .square => "]"
  | .curly => "\x7d"

/-- A token. -/
inductive Token where
  /-- An identifier or a keyword. -/
  | word (text : String)
  /-- A literal, exactly as written. -/
  | literal (text : String)
  /-- A lifetime, with its quote. -/
  | lifetime (text : String)
  /-- A symbol; joined symbols belong to the symbol that follows. -/
  | symbol (char : Char) (joined : Bool)
  /-- An opening bracket. -/
  | opening (bracket : Bracket)
  /-- A closing bracket. -/
  | closing (bracket : Bracket)
  deriving DecidableEq, Repr

namespace Token

/-- The token as text. -/
def text : Token → String
  | word text | literal text | lifetime text => text
  | symbol char _ => String.singleton char
  | opening bracket => bracket.openText
  | closing bracket => bracket.closeText

/-- Whether the next token stands right after this one. -/
def holdsNext : Token → Bool
  | symbol _ joined => joined
  | opening .round | opening .square => true
  | _ => false

/-- Whether this token stands right after the one before it. -/
def holdsPrevious : Token → Bool
  | closing .round | closing .square => true
  | _ => false

/-- The text between two neighbours. -/
def gap (before after : Token) : String :=
  if before.holdsNext || after.holdsPrevious then "" else " "

/-- The tokens after `before`, each with the text that precedes it. -/
def renderAfter (before : Token) : List Token → String
  | [] => ""
  | token :: rest => gap before token ++ token.text ++ renderAfter token rest

/-- Writes tokens out. -/
def render : List Token → String
  | [] => ""
  | token :: rest => token.text ++ renderAfter token rest

/-- The tokens of a symbol of one or more characters: all but the last are joined. -/
def operatorChars : List Char → List Token
  | [] => []
  | [char] => [symbol char false]
  | char :: rest => symbol char true :: operatorChars rest

/-- The tokens of a symbol of one or more characters. -/
def operator (text : String) : List Token := operatorChars text.toList

/-- Tokens between brackets. -/
def enclosed (bracket : Bracket) (inner : List Token) : List Token :=
  opening bracket :: inner ++ [closing bracket]

/-- A comma. -/
def comma : Token := symbol ',' false

/-- Items with a comma between neighbours, and one more at the end if `trailing`. -/
def commaSeparated (trailing : Bool) : List (List Token) → List Token
  | [] => []
  | [item] => if trailing then item ++ [comma] else item
  | item :: rest => item ++ comma :: commaSeparated trailing rest

/-- The attribute that documents what follows it with this literal. -/
def document (text : String) : List Token :=
  symbol '#' false :: enclosed .square [word "doc", symbol '=' false, literal text]

end Token

end CopySynth.Code
