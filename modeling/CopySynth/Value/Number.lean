import CopySynth.Value.Binary64

/-!
# Numbers in texts

A whole number is an optional sign and decimal digits, and fits into 64 bits. A decimal number may
also have a point with digits on at least one side of it and an exponent, or be one of the words
for infinity and for what is no number, in any mix of capitals.
-/

namespace CopySynth.Number

/-- The value of decimal digits. -/
def ofDigits (digits : List Char) : Nat :=
  digits.foldl (fun value digit => value * 10 + (digit.toNat - 48)) 0

/-- Splits off a sign; tells whether it is a minus. -/
def splitSign : List Char → Bool × List Char
  | '-' :: rest => (true, rest)
  | '+' :: rest => (false, rest)
  | text => (false, text)

/-- A whole number with its sign, if it fits into 64 bits. -/
def whole? (text : List Char) : Option Int :=
  let (negative, digits) := splitSign text
  if digits.isEmpty || !digits.all Char.isDigit then none
  else
    let value : Int := if negative then -(ofDigits digits : Int) else ofDigits digits
    if -Int.pow 2 63 ≤ value ∧ value < Int.pow 2 63 then some value else none

/-- An exponent after its letter; no letter stands for zero. -/
def exponent? : List Char → Option Int
  | [] => some 0
  | letter :: rest =>
    if letter = 'e' ∨ letter = 'E' then
      let (negative, digits) := splitSign rest
      if digits.isEmpty || !digits.all Char.isDigit then none
      else some (if negative then -(ofDigits digits : Int) else ofDigits digits)
    else none

/-- A decimal number without sign. -/
def unsigned? (text : List Char) : Option Binary64 :=
  let before := text.takeWhile Char.isDigit
  let rest := text.dropWhile Char.isDigit
  let after := match rest with
    | '.' :: rest => rest.takeWhile Char.isDigit
    | _ => []
  let left := match rest with
    | '.' :: rest => rest.dropWhile Char.isDigit
    | rest => rest
  if before.isEmpty && after.isEmpty then none
  else (exponent? left).map fun exponent =>
    Binary64.ofDecimal (ofDigits (before ++ after)) (exponent - after.length)

/-- A decimal number or one of the words. -/
def decimal? (text : List Char) : Option Binary64 :=
  let (negative, rest) := splitSign text
  let word := rest.map Char.toLower
  let found :=
    if word = "inf".toList ∨ word = "infinity".toList then some Binary64.infinity
    else if word = "nan".toList then some Binary64.nan
    else unsigned? rest
  if negative then found.map Binary64.negate else found

end CopySynth.Number
