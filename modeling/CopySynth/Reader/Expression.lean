import CopySynth.Reader.Cursor
import CopySynth.Reader.FieldNumber

/-!
# Reading expressions and types

Expressions are read by their operators' levels, over the operands read here. Types and paths are
read into the tokens they are written out with. The first argument of each reader bounds the depth
of the calls, which the wrappers at the end compute from the number of tokens.
-/

namespace CopySynth.Reader

open Code

/-! ## Pieces of types -/

/-- A path. -/
structure Path where
  /-- The tokens up to the last name. -/
  head : List Token
  /-- The generic arguments of the last name. -/
  arguments : List Token := []
  /-- Whether the last name has such an argument. -/
  filled : Bool := false
  /-- Whether the path begins with a type in angle brackets. -/
  qualified : Bool := false
  /-- Whether the path consists of names alone. -/
  plain : Bool := true
  /-- Whether the path is one name with its generic arguments. -/
  single : Bool := true

/-- The tokens of a path. -/
def Path.tokens (path : Path) : List Token := path.head ++ path.arguments

/-- A path that goes on behind a double colon. -/
def Path.append (path others : Path) : Path :=
  { others with
    head := path.tokens ++ Token.operator "::" ++ others.head
    qualified := path.qualified
    plain := path.plain && others.plain
    single := false }

/-- What a type is, as far as what may follow it depends on that. -/
inductive TypeForm where
  /-- One name with its generic arguments. -/
  | name
  /-- Another path without a type in front of it. -/
  | path
  /-- One bound of an interface. -/
  | bound
  /-- Any other type. -/
  | other
  deriving DecidableEq

/-- A type. -/
structure TypeCode where
  /-- The tokens. -/
  tokens : List Token
  /-- What the type is. -/
  form : TypeForm := .other

/-- A generic argument. -/
structure Argument where
  /-- The tokens. -/
  tokens : List Token
  /-- Whether it is a lifetime. -/
  lifetime : Bool
  /-- Whether a comma follows it. -/
  comma : Bool

/-- The tokens of an argument with its comma. -/
def Argument.withComma (argument : Argument) : List Token :=
  if argument.comma then argument.tokens ++ [Token.comma] else argument.tokens

/-- Generic arguments are written with the lifetimes first. -/
def argumentTokens (arguments : List Argument) : List Token :=
  let lifetimes := arguments.filter (·.lifetime)
  let others := arguments.filter (!·.lifetime)
  let parted := lifetimes.all (·.comma) || others.isEmpty
  lifetimes.flatMap (·.withComma) ++ (if parted then [] else [Token.comma]) ++
    others.flatMap (·.withComma)

/-- Bounds with a plus between neighbours; a plus at the end stands before an empty bound. -/
def plusSeparated : List (List Token) → List Token
  | [] => []
  | [bound] => bound
  | bound :: rest => bound ++ .symbol '+' false :: plusSeparated rest

/-- Whether a bound names an interface. -/
def isInterface : List Token → Bool
  | [] | [.lifetime _] => false
  | _ => true

/-! ## Pieces of expressions -/

/-- Whether a literal is a number. -/
def isNumber (text : String) : Bool := text.toList.head?.any Char.isDigit

/-- The words before the operand of a reference. -/
def borrowWords : List Token → List String × List Token
  | .word "mut" :: rest => (["mut"], rest)
  | .word "raw" :: .word "mut" :: rest => (["raw", "mut"], rest)
  | .word "raw" :: .word "const" :: rest => (["raw", "const"], rest)
  | tokens => ([], tokens)

/-- Adds attributes to an expression. -/
def withAttributes (attributes : List Token) (operand : Expr) : Expr :=
  if attributes.isEmpty then operand else .led attributes operand

/-- Adds a field, by the number its name is. -/
def withNumber (operand : Expr) (number : String) : Expr := .field operand (.literal number)

/-! ## Brackets -/

/-- Whether the operator is read as the start of generic arguments behind the name of a type. -/
def opensGenerics : BinaryOp → Bool
  | .lt | .shl => true
  | _ => false

/-- Whether a type ends with a name, so that generic arguments could follow it. -/
def endsWithName (type : List Token) : Bool :=
  match type.getLast? with
  | some (.word text) => text != "_"
  | _ => false

mutual
/-- Puts brackets around the conversions at the right edge of the operands of an expression, where
generic arguments would be read behind the name of the type. `generics` tells whether an operator
that opens such arguments follows. -/
def sheltered : Bool → Expr → Expr
  | generics, .unary sign operand => .unary sign (sheltered generics operand)
  | generics, .borrow words operand => .borrow words (sheltered generics operand)
  | generics, .led lead operand => .led lead (sheltered generics operand)
  | generics, .binary op left right =>
    .binary op (sheltered (opensGenerics op) left) (sheltered generics right)
  | _, .range inclusive lower upper =>
    .range inclusive (shelteredBound lower) (shelteredBound upper)
  | generics, .cast operand type =>
    let cast := Expr.cast (sheltered false operand) type
    if generics && endsWithName type then .group cast else cast
  | _, expr => expr

/-- Puts brackets into a bound of a range. -/
def shelteredBound : Option Expr → Option Expr
  | none => none
  | some expr => some (sheltered false expr)
end

/-! ## The grammar -/

mutual

/-- Reads a type; `plus` tells whether bounds may be added to it. -/
def type : Nat → Bool → Read TypeCode
  | 0, _, _ => none
  | depth + 1, plus, tokens =>
    match tokens with
    | .opening .round :: rest => roundType depth plus rest
    | .opening .square :: rest => do
      let (item, rest) ← type depth true rest
      match after ";" rest with
      | some rest =>
        let (length, rest) ← expr depth rest
        let (_, rest) ← closes .square rest
        some (⟨Token.enclosed .square (item.tokens ++ .symbol ';' false :: length.tokens), .other⟩,
          rest)
      | none =>
        let (_, rest) ← closes .square rest
        some (⟨Token.enclosed .square item.tokens, .other⟩, rest)
    | .symbol '*' _ :: .word word :: rest =>
      if word = "const" ∨ word = "mut" then do
        let (target, rest) ← type depth false rest
        some (⟨.symbol '*' false :: .word word :: target.tokens, .other⟩, rest)
      else none
    | .symbol '&' _ :: rest => do
      let (lifetime, rest) := match rest with
        | .lifetime text :: rest => ([Token.lifetime text], rest)
        | _ => ([], rest)
      let (mutable, rest) := match rest with
        | .word "mut" :: rest => ([Token.word "mut"], rest)
        | _ => ([], rest)
      let (target, rest) ← type depth false rest
      some (⟨.symbol '&' false :: lifetime ++ mutable ++ target.tokens, .other⟩, rest)
    | .symbol '!' _ :: rest => some (⟨[.symbol '!' false], .other⟩, rest)
    | .lifetime _ :: _ => interfaceType depth true [] tokens
    | .word "_" :: rest => some (⟨[.word "_"], .other⟩, rest)
    | .word "dyn" :: .symbol '*' _ :: rest =>
      interfaceType depth plus [.word "dyn", .symbol '*' false] rest
    | .word "dyn" :: rest => interfaceType depth plus [.word "dyn"] rest
    | .word "impl" :: rest => interfaceType depth plus [.word "impl"] rest
    | .word "for" :: _ => do
      let (lead, rest) ← binder tokens
      let (path, rest) ← path depth false rest
      if path.qualified then none
      else
        let (others, rest) ← if plus then moreBounds depth beginsBound rest else some ([], rest)
        let form := if others.isEmpty then TypeForm.bound else .other
        some (⟨plusSeparated ((lead ++ path.tokens) :: others), form⟩, rest)
    | .word "try" :: _ => none
    | _ => do
      let (path, rest) ← path depth false tokens
      if path.qualified then some (⟨path.tokens, .other⟩, rest)
      else if path.plain && begins "!" rest && !begins "!=" rest then
        match rest with
        | .symbol _ _ :: .opening bracket :: body =>
          let (inner, rest) ← untilClosed 0 body
          some (⟨path.tokens ++ .symbol '!' false :: Token.enclosed bracket inner, .other⟩, rest)
        | _ => none
      else if plus && begins "+" rest then
        let (others, rest) ← moreBounds depth beginsBound rest
        some (⟨plusSeparated (path.tokens :: others), .other⟩, rest)
      else some (⟨path.tokens, if path.single then .name else .path⟩, rest)

/-- Reads a type after its opening round bracket. -/
def roundType : Nat → Bool → Read TypeCode
  | 0, _, _ => none
  | depth + 1, plus, tokens =>
    match tokens with
    | .closing .round :: rest => some (⟨Token.enclosed .round [], .other⟩, rest)
    | .lifetime _ :: _ => do
      let (inner, rest) ← interfaceType depth true [] tokens
      let (_, rest) ← closes .round rest
      some (⟨Token.enclosed .round inner.tokens, .other⟩, rest)
    | .symbol '?' _ :: _ => do
      let (inner, rest) ← interface depth tokens
      let (_, rest) ← closes .round rest
      let (others, rest) ← moreBounds depth (fun _ => true) rest
      let form := if others.isEmpty then TypeForm.bound else .other
      some (⟨plusSeparated (Token.enclosed .round inner :: others), form⟩, rest)
    | _ => do
      let (first, rest) ← type depth true tokens
      match after "," rest with
      | some rest =>
        let (others, trailing, rest) ← types depth rest
        let (_, rest) ← closes .round rest
        let trailing := trailing || others.isEmpty
        some (⟨Token.enclosed .round (Token.commaSeparated trailing (first.tokens :: others)),
          .other⟩, rest)
      | none =>
        let (_, rest) ← closes .round rest
        let inner := Token.enclosed .round first.tokens
        if plus && begins "+" rest && first.form ∈ [TypeForm.name, .path, .bound] then
          let (others, rest) ← moreBounds depth (fun _ => true) rest
          some (⟨plusSeparated (inner :: others), .other⟩, rest)
        else some (⟨inner, .other⟩, rest)

/-- Reads types with commas between them, up to a closing bracket. -/
def types : Nat → List Token → Option (List (List Token) × Bool × List Token)
  | 0, _ => none
  | depth + 1, tokens =>
    if atEnd tokens then some ([], false, tokens)
    else do
      let (first, rest) ← type depth true tokens
      if atEnd rest then some ([first.tokens], false, rest)
      else
        let (_, rest) ← sign "," rest
        let (others, trailing, rest) ← types depth rest
        some (first.tokens :: others, trailing || others.isEmpty, rest)

/-- Reads a type by its bounds, behind the words that lead it; one of them names an interface. -/
def interfaceType : Nat → Bool → List Token → Read TypeCode
  | 0, _, _, _ => none
  | depth + 1, plus, lead, tokens => do
    let (first, rest) ← bound depth tokens
    let (others, rest) ← if plus then moreBounds depth beginsBound rest else some ([], rest)
    let bounds := first :: others
    if bounds.any isInterface then
      let form := if lead.isEmpty && others.isEmpty then TypeForm.bound else .other
      some (⟨lead ++ plusSeparated bounds, form⟩, rest)
    else none

/-- Reads bounds as long as they go on. -/
def bounds : Nat → (List Token → Bool) → Read (List (List Token))
  | 0, _, _ => none
  | depth + 1, goesOn, tokens =>
    if goesOn tokens then do
      let (first, rest) ← bound depth tokens
      let (others, rest) ← moreBounds depth goesOn rest
      some (first :: others, rest)
    else some ([], tokens)

/-- Reads the bounds that are added to one; a plus at the end is an empty bound. -/
def moreBounds : Nat → (List Token → Bool) → Read (List (List Token))
  | 0, _, _ => none
  | depth + 1, goesOn, tokens =>
    match after "+" tokens with
    | none => some ([], tokens)
    | some rest => do
      let (others, rest) ← bounds depth goesOn rest
      some (if others.isEmpty then [[]] else others, rest)

/-- Reads a bound: a lifetime or an interface. -/
def bound : Nat → Read (List Token)
  | 0, _ => none
  | depth + 1, tokens =>
    match tokens with
    | .lifetime text :: rest => some ([.lifetime text], rest)
    | .opening .round :: rest => do
      let (inner, rest) ← interface depth rest
      let (_, rest) ← closes .round rest
      some (Token.enclosed .round inner, rest)
    | _ => interface depth tokens

/-- Reads an interface that bounds a type, possibly marked as optional. -/
def interface : Nat → Read (List Token)
  | 0, _ => none
  | depth + 1, tokens => do
    let (early, rest) ← binder tokens
    let (mark, rest) := match rest with
      | .symbol '?' _ :: rest => ([Token.symbol '?' false], rest)
      | _ => ([], rest)
    let (late, rest) ← if early.isEmpty && !mark.isEmpty then binder rest else some ([], rest)
    let (path, rest) ← path depth false rest
    if path.qualified then none
    else
      let lead := early ++ mark ++ late
      match path.filled, beginsInputs rest with
      | false, some rest =>
        let (inputs, rest) ← inputs depth rest
        some (lead ++ path.head ++ inputs, rest)
      | _, _ => some (lead ++ path.tokens, rest)

/-- Reads the types in round brackets behind the name of an interface, after the opening one, with
the result behind them. -/
def inputs : Nat → Read (List Token)
  | 0, _ => none
  | depth + 1, tokens => do
    let (found, trailing, rest) ← types depth tokens
    let (_, rest) ← closes .round rest
    let inner := Token.enclosed .round (Token.commaSeparated trailing found)
    match after "->" rest with
    | none => some (inner, rest)
    | some rest =>
      let (result, rest) ← type depth false rest
      some (inner ++ Token.operator "->" ++ result.tokens, rest)

/-- Reads a path. -/
def path : Nat → Bool → Read Path
  | 0, _, _ => none
  | depth + 1, inExpr, tokens =>
    if begins "<" tokens then do
      let (_, rest) ← sign "<" tokens
      let (self, rest) ← type depth true rest
      let (view, rest) ← match rest with
        | .word "as" :: rest => do
          let (view, rest) ← path depth false rest
          if view.qualified then none else some (Token.word "as" :: view.tokens, rest)
        | _ => some ([], rest)
      let (_, rest) ← sign ">" rest
      let (_, rest) ← sign "::" rest
      let (names, rest) ← segments depth inExpr rest
      let front := .symbol '<' false :: self.tokens ++ view ++ [.symbol '>' false]
      some (Path.append { head := front, qualified := true, plain := false } names, rest)
    else match after "::" tokens with
      | some rest => do
        let (names, rest) ← segments depth inExpr rest
        some ({ names with head := Token.operator "::" ++ names.head, single := false }, rest)
      | none => segments depth inExpr tokens

/-- Reads the names of a path. -/
def segments : Nat → Bool → Read Path
  | 0, _, _ => none
  | depth + 1, inExpr, tokens => do
    let (first, rest) ← segment depth inExpr tokens
    match continuesPath rest with
    | some rest => do
      let (others, rest) ← segments depth inExpr rest
      some (first.append others, rest)
    | none => some (first, rest)

/-- Reads one name of a path with its generic arguments. -/
def segment : Nat → Bool → Read Path
  | 0, _, _ => none
  | depth + 1, inExpr, tokens =>
    match tokens with
    | .word text :: rest =>
      if text ∈ pathKeywords then some ({ head := [.word text] }, rest)
      else if text ∈ keywords ∧ text ≠ "Self" then none
      else if argumentsFollow inExpr rest then do
        let ((arguments, filled), rest) ← generics depth rest
        some ({ head := [.word text], arguments, filled, plain := false }, rest)
      else some ({ head := [.word text] }, rest)
    | _ => none

/-- Reads generic arguments in angle brackets; tells whether there is one. -/
def generics : Nat → Read (List Token × Bool)
  | 0, _ => none
  | depth + 1, tokens => do
    let (lead, rest) := match after "::" tokens with
      | some rest => (Token.operator "::", rest)
      | none => ([], tokens)
    let (_, rest) ← sign "<" rest
    let (found, rest) ← arguments depth rest
    let (_, rest) ← sign ">" rest
    some ((lead ++ .symbol '<' false :: argumentTokens found ++ [.symbol '>' false],
      !found.isEmpty), rest)

/-- Reads generic arguments up to the closing angle bracket. -/
def arguments : Nat → Read (List Argument)
  | 0, _ => none
  | depth + 1, tokens =>
    if begins ">" tokens then some ([], tokens)
    else do
      let ((found, lifetime), rest) ← argument depth tokens
      if begins ">" rest then some ([⟨found, lifetime, false⟩], rest)
      else
        let (_, rest) ← sign "," rest
        let (others, rest) ← arguments depth rest
        some (⟨found, lifetime, true⟩ :: others, rest)

/-- Reads one generic argument and tells whether it is a lifetime. -/
def argument : Nat → Read (List Token × Bool)
  | 0, _ => none
  | depth + 1, tokens =>
    match tokens with
    | .lifetime _ :: .symbol '+' _ :: _ => do
      let (found, rest) ← interfaceType depth true [] tokens
      some ((found.tokens, false), rest)
    | .lifetime text :: rest => some (([.lifetime text], true), rest)
    | _ =>
      match constant depth tokens with
      | some (found, rest) => some ((found, false), rest)
      | none => do
        let (found, rest) ← type depth true tokens
        match found.form, after "=" rest, after ":" rest with
        | .name, some rest, _ => do
          let (value, rest) ← match constant depth rest with
            | some read => some read
            | none => (type depth true rest).map fun (value, rest) => (value.tokens, rest)
          some ((found.tokens ++ .symbol '=' false :: value, false), rest)
        | .name, none, some rest => do
          let goesOn := fun tokens => !begins "," tokens && !begins ">" tokens
          let (limits, rest) ← bounds depth goesOn rest
          some ((found.tokens ++ .symbol ':' false :: plusSeparated limits, false), rest)
        | _, _, _ => some ((found.tokens, false), rest)

/-- Reads a constant among generic arguments: a literal, a negative number or a block. -/
def constant : Nat → Read (List Token)
  | 0, _ => none
  | depth + 1, tokens =>
    match tokens with
    | .literal text :: rest => some ([.literal text], rest)
    | .symbol '-' _ :: .literal text :: rest =>
      if isNumber text then some ([.symbol '-' false, .literal text], rest) else none
    | .word "true" :: rest => some ([.word "true"], rest)
    | .word "false" :: rest => some ([.word "false"], rest)
    | .opening .curly :: rest => do
      let (block, rest) ← block depth [] rest
      some (block.tokens, rest)
    | _ => none

/-- Reads the attributes in front of a piece of code. -/
def attributes : Nat → Read (List Token)
  | 0, _ => none
  | depth + 1, tokens =>
    match tokens with
    | .symbol '#' _ :: .opening .square :: rest => do
      let (found, rest) ← attributeBody depth rest
      let (_, rest) ← closes .square rest
      let (others, rest) ← attributes depth rest
      some (.symbol '#' false :: Token.enclosed .square found ++ others, rest)
    | .symbol '#' _ :: _ => none
    | _ => some ([], tokens)

/-- Reads the attributes that a block begins with and that are its own. -/
def innerAttributes : Nat → Read (List Token)
  | 0, _ => none
  | depth + 1, tokens =>
    match tokens with
    | .symbol '#' _ :: .symbol '!' _ :: rest => do
      let (_, rest) ← opens .square rest
      let (found, rest) ← attributeBody depth rest
      let (_, rest) ← closes .square rest
      let (others, rest) ← innerAttributes depth rest
      some (.symbol '#' false :: .symbol '!' false :: Token.enclosed .square found ++ others, rest)
    | _ => some ([], tokens)

/-- Reads an attribute in its brackets: names, with tokens in brackets or a value behind them. -/
def attributeBody : Nat → Read (List Token)
  | 0, _ => none
  | depth + 1, tokens => do
    let (names, rest) ← rootedNames tokens
    match rest with
    | .opening bracket :: body =>
      let (inner, rest) ← untilClosed 0 body
      some (names ++ Token.enclosed bracket inner, rest)
    | _ =>
      match after "=" rest with
      | some rest =>
        if begins "#" rest then none
        else
          let (value, rest) ← expr depth rest
          some (names ++ .symbol '=' false :: value.tokens, rest)
      | none => some (names, rest)

/-- The pieces that operators join. -/
def grammar : Nat → Grammar
  | 0 => { operand := fun _ => none, extend := fun _ _ => none, type := fun _ => none }
  | depth + 1 =>
    { operand := fun tokens => unary depth tokens
      extend := fun operand tokens => trailer depth operand tokens
      type := fun tokens => (type depth false tokens).map fun (found, rest) =>
        (found.tokens, rest) }

/-- Reads an expression. -/
def expr : Nat → Read Expr
  | 0, _ => none
  | depth + 1, tokens => do
    let (found, rest) ← (grammar depth).expr tokens
    some (sheltered false found, rest)

/-- Reads an operand with the attributes and the signs before it. -/
def unary : Nat → Read Expr
  | 0, _ => none
  | depth + 1, tokens => do
    let (attributes, rest) ← attributes depth tokens
    let (operand, rest) ← signed depth rest
    if operand.isRange && !attributes.isEmpty then none
    else some (withAttributes attributes operand, rest)

/-- Reads an operand with the signs before it. -/
def signed : Nat → Read Expr
  | 0, _ => none
  | depth + 1, tokens =>
    match tokens with
    | .symbol '&' _ :: rest => do
      let (words, rest) := borrowWords rest
      let (operand, rest) ← unary depth rest
      some (.borrow words operand, rest)
    | .symbol '*' _ :: rest => do
      let (operand, rest) ← unary depth rest
      some (.unary '*' operand, rest)
    | .symbol '!' _ :: rest => do
      let (operand, rest) ← unary depth rest
      some (.unary '!' operand, rest)
    | .symbol '-' _ :: rest => do
      let (operand, rest) ← unary depth rest
      some (.unary '-' operand, rest)
    | _ => do
      let (operand, rest) ← atom depth tokens
      trailer depth operand rest

/-- Reads an operand without signs before it and without anything behind it. -/
def atom : Nat → Read Expr
  | 0, _ => none
  | depth + 1, tokens =>
    match tokens with
    | .literal text :: rest => some (.literal text, rest)
    | .opening .round :: rest => do
      let (items, trailing, rest) ← items depth rest
      let (_, rest) ← closes .round rest
      match items, trailing with
      | [inner], false => some (.group inner, rest)
      | _, _ => some (.tuple items trailing, rest)
    | .opening .square :: rest => do
      let (items, trailing, rest) ← items depth rest
      match items, trailing, after ";" rest with
      | [item], false, some rest =>
        let (length, rest) ← expr depth rest
        let (_, rest) ← closes .square rest
        some (.filled item length, rest)
      | _, _, _ =>
        let (_, rest) ← closes .square rest
        some (.array items trailing, rest)
    | .opening .curly :: rest => block depth [] rest
    | .symbol '|' _ :: rest => closure depth false rest
    | .word "move" :: .symbol '|' _ :: rest => closure depth true rest
    | .word "async" :: .word "move" :: .opening .curly :: rest => block depth ["async", "move"] rest
    | .word text :: rest =>
      if text = "true" ∨ text = "false" then some (.literal text, rest)
      else if text = "_" then some (.path [.word "_"], rest)
      else if text = "continue" then some (.other [.word text], rest)
      else if text ∈ ["return", "break", "yield"] then
        if beginsExpr rest then do
          let (value, rest) ← expr depth rest
          some (.jump [.word text] (some value), rest)
        else some (.jump [.word text] none, rest)
      else match text, rest with
        | "unsafe", .opening .curly :: rest | "const", .opening .curly :: rest
        | "async", .opening .curly :: rest | "loop", .opening .curly :: rest
        | "try", .opening .curly :: rest => block depth [text] rest
        | _, _ =>
          if text = "try" ∧ !begins "!" rest ∧ !begins "::" rest then none else named depth tokens
    | _ =>
      if begins ".." tokens then do
        let (inclusive, rest) ← rangeSign tokens
        let (upper, rest) ← (grammar depth).upperBound (Grammar.turnsFor rest) inclusive rest
        some (.range inclusive none upper, rest)
      else if begins "::" tokens || begins "<" tokens then named depth tokens
      else none

/-- Reads an expression that begins with a path. -/
def named : Nat → Read Expr
  | 0, _ => none
  | depth + 1, tokens => do
    let (path, rest) ← path depth true tokens
    match rest with
    | .symbol '!' _ :: .opening bracket :: body =>
      if path.plain then
        let (inner, rest) ← untilClosed 0 body
        some (.invocation path.tokens bracket inner, rest)
      else some (.path path.tokens, rest)
    | .opening .curly :: body =>
      let (members, trailing, rest) ← members depth body
      let (_, rest) ← closes .curly rest
      some (.record path.tokens members trailing, rest)
    | _ => some (.path path.tokens, rest)

/-- Extends an operand by calls, fields, elements and marks that follow it. -/
def trailer : Nat → Expr → Read Expr
  | 0, _, _ => none
  | depth + 1, operand, tokens =>
    match tokens with
    | .opening .round :: rest => do
      let (args, trailing, rest) ← items depth rest
      let (_, rest) ← closes .round rest
      trailer depth (.call operand args trailing) rest
    | .opening .square :: rest => do
      let (position, rest) ← expr depth rest
      let (_, rest) ← closes .square rest
      trailer depth (.index operand position) rest
    | .symbol '?' _ :: rest =>
      if operand.isRange then some (operand, tokens) else trailer depth (.attempt operand) rest
    | .symbol '.' _ :: rest =>
      if operand.isRange || begins ".." tokens then some (operand, tokens)
      else match rest with
        | .literal text :: rest => do
          let (numbers, unfinished) ← fieldNumbers? text
          let operand := numbers.foldl withNumber operand
          if unfinished then selector depth operand rest else trailer depth operand rest
        | _ => selector depth operand rest
    | _ => some (operand, tokens)

/-- Extends an operand by the one field or method whose name follows, and by what follows that. -/
def selector : Nat → Expr → Read Expr
  | 0, _, _ => none
  | depth + 1, operand, tokens =>
    match tokens with
    | .literal text :: rest => do
      let number ← fieldNumber? text
      trailer depth (withNumber operand number) rest
    | .word "await" :: rest => trailer depth (.field operand (.word "await")) rest
    | _ => do
      let (name, rest) ← plainName tokens
      if begins "::" rest then
        let ((arguments, _), rest) ← generics depth rest
        let (_, rest) ← opens .round rest
        let (args, trailing, rest) ← items depth rest
        let (_, rest) ← closes .round rest
        trailer depth (.method operand name arguments args trailing) rest
      else match rest with
        | .opening .round :: rest =>
          let (args, trailing, rest) ← items depth rest
          let (_, rest) ← closes .round rest
          trailer depth (.method operand name [] args trailing) rest
        | _ => trailer depth (.field operand (.word name)) rest

/-- Reads expressions with commas between them, up to the first that no comma follows. -/
def items : Nat → List Token → Option (List Expr × Bool × List Token)
  | 0, _ => none
  | depth + 1, tokens =>
    if atEnd tokens then some ([], false, tokens)
    else do
      let (first, rest) ← expr depth tokens
      match after "," rest with
      | none => some ([first], false, rest)
      | some rest =>
        let (others, trailing, rest) ← items depth rest
        some (first :: others, trailing || others.isEmpty, rest)

/-- Reads the members of a record up to its closing bracket. -/
def members : Nat → List Token → Option (List Member × Bool × List Token)
  | 0, _ => none
  | depth + 1, tokens =>
    if atEnd tokens then some ([], false, tokens)
    else match after ".." tokens with
      | some rest =>
        if atEnd rest then some ([.rest none], false, rest)
        else do
          let (value, rest) ← expr depth rest
          some ([.rest (some value)], false, rest)
      | none => do
        let (attributes, rest) ← attributes depth tokens
        let (first, rest) ← member depth rest
        let first := if attributes.isEmpty then first else .attributed attributes first
        if atEnd rest then some ([first], false, rest)
        else
          let (_, rest) ← sign "," rest
          let (others, trailing, rest) ← members depth rest
          some (first :: others, trailing || others.isEmpty, rest)

/-- Reads a field of a record with its value; a numbered field always has one. -/
def member : Nat → Read Member
  | 0, _ => none
  | depth + 1, tokens =>
    match tokens with
    | .literal text :: rest => do
      let number ← fieldNumber? text
      let (_, rest) ← sign ":" rest
      let (value, rest) ← expr depth rest
      some (.named number value, rest)
    | _ => do
      let (name, rest) ← plainName tokens
      match after ":" rest with
      | some rest => do
        let (value, rest) ← expr depth rest
        some (.named name value, rest)
      | none => some (.same name, rest)

/-- Reads a block after its opening bracket; the words stand before it. -/
def block : Nat → List String → Read Expr
  | 0, _, _ => none
  | depth + 1, words, tokens => do
    let (own, rest) ←
      if words.head? ∈ [some "async", some "try"] then some ([], tokens)
      else innerAttributes depth tokens
    let (found, rest) ← statements depth rest
    let (_, rest) ← closes .curly rest
    some (.block words (if own.isEmpty then found else .attributes own :: found), rest)

/-- Reads the statements of a block. All but the last and those that a bracket ends need a
semicolon. -/
def statements : Nat → Read (List Statement)
  | 0, _ => none
  | depth + 1, tokens =>
    if atEnd tokens then some ([], tokens)
    else match after ";" tokens with
      | some rest => do
        let (others, rest) ← statements depth rest
        some (.empty :: others, rest)
      | none => do
        let ((value, complete), rest) ← statement depth tokens
        match after ";" rest with
        | some rest =>
          let (others, rest) ← statements depth rest
          some (.plain value true :: others, rest)
        | none =>
          if complete || atEnd rest then
            let (others, rest) ← statements depth rest
            some (.plain value false :: others, rest)
          else none

/-- Reads the expression of a statement with the attributes before it, and tells whether a bracket
ends the statement. -/
def statement : Nat → Read (Expr × Bool)
  | 0, _ => none
  | depth + 1, tokens => do
    let (attributes, rest) ← attributes depth tokens
    if beginsUnit rest then none
    else if beginsBlock rest then
      let (value, rest) ← atom depth rest
      if beginsPoint rest || begins "?" rest then
        let (value, rest) ← trailer depth value rest
        let (value, rest) ← (grammar depth).climb (Grammar.turnsFor rest) 0 value rest
        some ((withAttributes attributes (sheltered false value), false), rest)
      else some ((withAttributes attributes value, true), rest)
    else
      let (value, rest) ← expr depth rest
      some ((withAttributes attributes value, false), rest)

/-- Reads a function without a name after the bar that begins it. -/
def closure : Nat → Bool → Read Expr
  | 0, _, _ => none
  | depth + 1, owning, tokens => do
    let (parameters, trailing, rest) ← parameters depth tokens
    let (_, rest) ← sign "|" rest
    let (body, rest) ← expr depth rest
    some (.closure owning parameters trailing body, rest)

/-- Reads the parameters of a function up to the bar that ends them. -/
def parameters : Nat → List Token → Option (List (List Token) × Bool × List Token)
  | 0, _ => none
  | depth + 1, tokens =>
    if begins "|" tokens then some ([], false, tokens)
    else do
      let (attributes, rest) ← attributes depth tokens
      let (first, rest) ← parameter depth rest
      let first := attributes ++ first
      if begins "|" rest then some ([first], false, rest)
      else
        let (_, rest) ← sign "," rest
        let (others, trailing, rest) ← parameters depth rest
        some (first :: others, trailing || others.isEmpty, rest)

/-- Reads a parameter: a name or a blank, behind reference signs, with its type if it is given. -/
def parameter : Nat → Read (List Token)
  | 0, _ => none
  | depth + 1, tokens =>
    match tokens with
    | .symbol '&' _ :: rest => do
      let (inner, rest) ← parameter depth rest
      some (.symbol '&' false :: inner, rest)
    | .word "mut" :: rest => do
      let (inner, rest) ← parameter depth rest
      some (.word "mut" :: inner, rest)
    | .word text :: rest =>
      if text ∈ keywords ∧ text ≠ "_" then none
      else match after ":" rest with
        | some rest => do
          let (found, rest) ← type depth true rest
          some (.word text :: .symbol ':' false :: found.tokens, rest)
        | none => some ([.word text], rest)
    | _ => none

end

/-- Between two tokens that are read, calls go at most this deep. -/
def depthFor (tokens : List Token) : Nat := 16 * (tokens.length + 2)

/-- The expression that a text is, if all of it is one. -/
def expr? (text : String) : Option Expr := do
  let tokens ← Lexer.tokens? text
  match ← expr (depthFor tokens) tokens with
  | (found, []) => some found
  | _ => none

/-- The tokens of the type that a text is, if all of it is one. -/
def type? (text : String) : Option (List Token) := do
  let tokens ← Lexer.tokens? text
  match ← type (depthFor tokens) true tokens with
  | (found, []) => some found.tokens
  | _ => none

end CopySynth.Reader
