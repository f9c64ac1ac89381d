import CopySynth.Code.Item
import CopySynth.Copy.Body
import CopySynth.Emission.Name
import CopySynth.Generation.Config

/-!
# Copy methods in code

A record is a struct with the table's field names, a named sequence wraps its storage, and an
interface slot is an optional box. A public copy is also offered through the configured interface.
-/

namespace CopySynth.Emission

open Code (Expr Language Member)

/-- The value a method is called on. -/
def self : Expr := .name "self"

/-- The storage behind a wrapping type. -/
def storage (place : Expr) : Expr := .field place (.literal "0")

/-- The copy of a constituent that stands at this place. -/
def elementExpr (language : Language) (config : Config) (place : Expr) :
    ElementCopy → Except GenerationError Expr
  | .assign | .external _ => return place.send "clone" []
  | .helper _ => return place.send (← identifier language config.privateMethod) []
  | .capability name => do
    let method ← identifier language (config.capabilityMethod name)
    return (place.send "as_ref" []).send "map"
      [.function "v" ((Expr.name "v").send method [])]

/-- The members of a record copy. -/
def memberCopies (language : Language) (config : Config) :
    List (String × ElementCopy) → Except GenerationError (List Member)
  | [] => return []
  | (field, copy) :: rest => do
    let word ← identifier language field
    let value ← elementExpr language config (.field self (.word word)) copy
    return .named word value :: (← memberCopies language config rest)

/-- The body of the copy of a type. -/
def copyExpr (language : Language) (config : Config) (type : String) :
    CopyBody → Except GenerationError Expr
  | .trivial => throw (.unsupportedShape type .bodyOfBuiltin)
  | .shallow => return self.send "clone" []
  | .dynamic element => do
    let copy ← elementExpr language config (.name "k") element
    let copies := ((storage self).send "iter" []).send "map" [.function "k" copy]
    return .call (.name "Self") [copies.send "collect" []] false
  | .fixed _ element => do
    let copy ← elementExpr language config (.name "k") element
    let copies := ((storage self).send "each_ref" []).send "map" [.function "k" copy]
    return .call (.name "Self") [copies] false
  | .record fields => do
    let members ← memberCopies language config fields
    return .record [.word "Self"] members true

/-- The typed copy method of a type. -/
def copyBlock (language : Language) (config : Config) (type : String) (body : CopyBody)
    (doc : Option String) (visibility : Code.Visibility) :
    Except GenerationError Code.ImplBlock := do
  let target ← identifier language type
  let method ← identifier language config.privateMethod
  let body ← copyExpr language config type body
  return { target, method := { doc, visibility, name := method, result := [.word "Self"], body } }

/-- The method that offers a copy through an interface. -/
def interfaceBlock (language : Language) (config : Config) (target method interface : String) :
    Except GenerationError Code.ImplBlock := do
  let interface ← identifier language interface
  let name ← identifier language config.publicMethod
  let copy := Expr.call (.path (.word "Box" :: Code.Token.operator "::" ++ [.word "new"]))
    [self.send method []] false
  return { interface := some interface, target,
           method := { name, result := Code.boxed interface, body := copy } }

/-- The public copy of a type. -/
def publicCopy (language : Language) (config : Config) (type : String) (body : CopyBody) :
    Except GenerationError (List Code.ImplBlock) := do
  let doc := some "Returns a deep copy of this value."
  let own ← copyBlock language config type body doc .everywhere
  match config.publicTrait with
  | none => return [own]
  | some interface =>
    return [own, ← interfaceBlock language config own.target own.method.name interface]

/-- The private copy helper of a type. -/
def privateCopy (language : Language) (config : Config) (type : String) (body : CopyBody) :
    Except GenerationError (List Code.ImplBlock) := do
  return [← copyBlock language config type body none .unit]

end CopySynth.Emission
