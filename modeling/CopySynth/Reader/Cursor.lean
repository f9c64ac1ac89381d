import CopySynth.Code.Grammar
import CopySynth.Reader.Identifier

/-!
# Taking tokens

The small readers that the grammar is made of. A reader takes tokens from the front of a list and
returns what it has read with the tokens that follow, or nothing when the list begins otherwise.
-/

namespace CopySynth.Reader

open Code

/-- Reads a symbol. -/
def sign (text : String) : Read Unit := fun tokens => (after text tokens).map fun rest => ((), rest)

/-- Reads a closing bracket. -/
def closes (bracket : Bracket) : Read Unit
  | .closing found :: rest => if found = bracket then some ((), rest) else none
  | _ => none

/-- Reads an opening bracket. -/
def opens (bracket : Bracket) : Read Unit
  | .opening found :: rest => if found = bracket then some ((), rest) else none
  | _ => none

/-- Reads a name that is no keyword. -/
def plainName : Read String
  | .word text :: rest => if text ∈ keywords then none else some (text, rest)
  | _ => none

/-- Reads the tokens up to the closing bracket that matches an opening one already read, with so
many others open inside it. -/
def untilClosed : Nat → Read (List Token)
  | 0, .closing _ :: rest => some ([], rest)
  | depth + 1, .closing bracket :: rest => do
    let (inner, rest) ← untilClosed depth rest
    some (.closing bracket :: inner, rest)
  | depth, .opening bracket :: rest => do
    let (inner, rest) ← untilClosed (depth + 1) rest
    some (.opening bracket :: inner, rest)
  | depth, token :: rest => do
    let (inner, rest) ← untilClosed depth rest
    some (token :: inner, rest)
  | _, [] => none

/-- Reads names with double colons between them; of the keywords, those for places count as
names. -/
def names : Read (List Token)
  | .word text :: rest =>
    if text ∈ keywords ∧ text ∉ ["self", "Self", "super", "crate"] then none
    else match rest with
      | .symbol ':' true :: .symbol ':' _ :: rest => do
        let (others, rest) ← names rest
        some (.word text :: Token.operator "::" ++ others, rest)
      | _ => some ([.word text], rest)
  | _ => none

/-- Reads names that may stand behind a double colon. -/
def rootedNames : Read (List Token) := fun tokens =>
  match after "::" tokens with
  | some rest => (names rest).map fun (found, rest) => (Token.operator "::" ++ found, rest)
  | none => names tokens

/-- Reads lifetimes with commas between them and the angle bracket that closes them. -/
def lifetimes : Read (List Token)
  | .symbol '>' _ :: rest => some ([], rest)
  | .lifetime text :: .symbol '>' _ :: rest => some ([.lifetime text], rest)
  | .lifetime text :: .symbol ',' _ :: rest => do
    let (others, rest) ← lifetimes rest
    some (.lifetime text :: Token.comma :: others, rest)
  | _ => none

/-- Reads the introduction of lifetimes, if there is one. -/
def binder : Read (List Token)
  | .word "for" :: .symbol '<' _ :: rest => do
    let (found, rest) ← lifetimes rest
    some (.word "for" :: .symbol '<' false :: found ++ [.symbol '>' false], rest)
  | .word "for" :: _ => none
  | tokens => some ([], tokens)

/-- Keywords that stand for a place in the tree of names. -/
def pathKeywords : List String := ["super", "self", "crate", "try"]

/-- Whether generic arguments follow a name; in expressions a double colon leads them. -/
def argumentsFollow (inExpr : Bool) (tokens : List Token) : Bool :=
  (!inExpr && begins "<" tokens && !begins "<=" tokens && !begins "<<=" tokens) ||
    (match after "::" tokens with
      | some rest => begins "<" rest
      | none => false)

/-- What follows a double colon that continues a path. -/
def continuesPath (tokens : List Token) : Option (List Token) :=
  match after "::" tokens with
  | some (.opening .round :: _) => none
  | other => other

/-- What follows the round bracket behind the name of an interface; a double colon may lead it. -/
def beginsInputs (tokens : List Token) : Option (List Token) :=
  match (after "::" tokens).getD tokens with
  | .opening .round :: rest => some rest
  | _ => none

/-- Whether the tokens begin like a bound of an interface. -/
def beginsBound (tokens : List Token) : Bool :=
  begins "::" tokens || begins "?" tokens ||
    (match tokens with
      | .word _ :: _ | .lifetime _ :: _ | .opening .round :: _ => true
      | _ => false)

/-- Whether the tokens begin like an expression. -/
def beginsExpr (tokens : List Token) : Bool :=
  match tokens with
  | [] | .closing _ :: _ => false
  | .word text :: _ => text != "as"
  | .literal _ :: _ | .lifetime _ :: _ | .opening _ :: _ => true
  | .symbol _ _ :: _ =>
    let one (sign : String) (longer : List String) :=
      begins sign tokens && !longer.any (begins · tokens)
    one "!" ["!="] || one "-" ["-=", "->"] || one "*" ["*="] || one "|" ["|="] ||
      one "&" ["&="] || begins ".." tokens || one "<" ["<=", "<<="] || begins "::" tokens ||
      begins "#" tokens

/-- Whether the tokens begin with a named rule applied to curly brackets. -/
def beginsCurlyRule (tokens : List Token) : Bool :=
  match rootedNames tokens with
  | some (_, .symbol '!' _ :: .opening .curly :: _) => true
  | _ => false

/-- Whether the tokens begin with the word for the unit itself, which begins no expression unless a
double colon follows. -/
def beginsUnit : List Token → Bool
  | .word "crate" :: rest => !begins "::" rest
  | _ => false

/-- Whether the tokens begin with a statement that a closing bracket ends. -/
def beginsBlock (tokens : List Token) : Bool :=
  beginsCurlyRule tokens ||
    (match tokens with
      | .opening .curly :: _ => true
      | .word text :: .opening .curly :: _ => text ∈ ["unsafe", "const", "loop", "try"]
      | _ => false)

end CopySynth.Reader
