import CopySynth.Code.Item
import CopySynth.Emission.CopyMethod
import CopySynth.Emission.Name
import CopySynth.Generation.Config
import CopySynth.Zero.Body

/-!
# Zero predicates in code

The tests of a predicate are joined in order; a record without fields is always zero. A zero literal
is written as the right operand of its comparison, token by token.
-/

namespace CopySynth.Emission

open Code (Expr Language)

/-- The test of a constituent that stands at this place, whose value is compared as `value`. -/
def testExpr (language : Language) (config : Config) (place value : Expr) :
    ZeroTest → Except GenerationError Expr
  | .literal text => return .binary .eq value (← literal language text)
  | .zeroValue (some type) => return .binary .eq value (.defaultOf (← typeTokens language type))
  | .zeroValue none => return .binary .eq value (.callOf "Default" "default")
  | .empty true => return (storage place).send "is_empty" []
  | .empty false => return place.send "is_empty" []
  | .unset => return place.send "is_none" []
  | .delegate _ => return place.send (← identifier language config.zeroMethod) []

/-- The tests of a record's fields. -/
def fieldTests (language : Language) (config : Config) :
    List (String × ZeroTest) → Except GenerationError (List Expr)
  | [] => return []
  | (field, test) :: rest => do
    let place := Expr.field self (.word (← identifier language field))
    let first ← testExpr language config place place test
    return first :: (← fieldTests language config rest)

/-- Tests joined in order. -/
def conjunction : List Expr → Expr
  | [] => .literal "true"
  | first :: rest => rest.foldl (.binary .and) first

/-- The body of a zero predicate. -/
def zeroExpr (language : Language) (config : Config) : ZeroBody → Except GenerationError Expr
  | .equalsZeroValue => return .binary .eq (.unary '*' self) (.callOf "Self" "default")
  | .allFields tests => return conjunction (← fieldTests language config tests)
  | .allElements test => do
    let element := Expr.name "k"
    let body ← testExpr language config element (.unary '*' element) test
    return ((storage self).send "iter" []).send "all" [.function "k" body]

/-- The zero predicate of a type. -/
def zeroPredicate (language : Language) (config : Config) (type : String) (body : ZeroBody) :
    Except GenerationError (List Code.ImplBlock) := do
  let target ← identifier language type
  let name ← identifier language config.zeroMethod
  let body ← zeroExpr language config body
  let doc := some "Returns true if no field carries content."
  let result := [Code.Token.word "bool"]
  return [{ target, method := { doc, visibility := .everywhere, name, result, body } }]

end CopySynth.Emission
