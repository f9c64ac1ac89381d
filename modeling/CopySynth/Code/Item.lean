import CopySynth.Code.Expr

/-!
# Implementation blocks

The items that generated code consists of: a block that attaches one method to a type, on its own or
for an interface.
-/

namespace CopySynth.Code

/-- Who may call a method. -/
inductive Visibility where
  /-- As the block says. -/
  | inherited
  /-- Everyone. -/
  | everywhere
  /-- The code of the same unit. -/
  | unit
  deriving DecidableEq, Repr

/-- The visibility as tokens. -/
def Visibility.tokens : Visibility → List Token
  | .inherited => []
  | .everywhere => [.word "pub"]
  | .unit => .word "pub" :: Token.enclosed .round [.word "crate"]

/-- A method that takes its receiver by reference and nothing else. -/
structure MethodItem where
  /-- The sentence that documents it, if there is one. -/
  doc : Option String := none
  /-- Who may call it. -/
  visibility : Visibility := .inherited
  /-- Its name. -/
  name : String
  /-- The type of its result. -/
  result : List Token
  /-- Its body. -/
  body : Expr

/-- The method as tokens. -/
def MethodItem.tokens (method : MethodItem) : List Token :=
  (match method.doc with
    | some sentence => Token.document s!"r\" {sentence}\""
    | none => []) ++
  method.visibility.tokens ++ [.word "fn", .word method.name] ++
  Token.enclosed .round [.symbol '&' false, .word "self"] ++ Token.operator "->" ++
  method.result ++ Token.enclosed .curly method.body.tokens

/-- A block that attaches a method to a type. -/
structure ImplBlock where
  /-- The interface that the method belongs to, if it is not the type's own. -/
  interface : Option String := none
  /-- The type. -/
  target : String
  /-- The method. -/
  method : MethodItem

/-- The block as tokens. -/
def ImplBlock.tokens (block : ImplBlock) : List Token :=
  .word "impl" ::
  (match block.interface with
    | some interface => [.word interface, .word "for"]
    | none => []) ++
  .word block.target :: Token.enclosed .curly block.method.tokens

/-- Blocks as text. -/
def renderBlocks (blocks : List ImplBlock) : String :=
  Token.render (blocks.flatMap ImplBlock.tokens)

/-- The type of a boxed value of an interface. -/
def boxed (interface : String) : List Token :=
  [.word "Box", .symbol '<' false, .word "dyn", .word interface, .symbol '>' false]

end CopySynth.Code
