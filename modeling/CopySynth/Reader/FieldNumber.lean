import CopySynth.Reader.Lexer

/-!
# Numbers that name fields

A field of a tuple is named by a whole number of 32 bits, in any base, with separators between its
digits, and is written out in decimal. A number with points in it names a field of a field; when it
ends with a point, the name of one more field has to follow.
-/

namespace CopySynth.Reader

/-- The base that a number is written in, and its digits. -/
def splitBase : List Char → Nat × List Char
  | '0' :: 'x' :: digits => (16, digits)
  | '0' :: 'o' :: digits => (8, digits)
  | '0' :: 'b' :: digits => (2, digits)
  | digits => (10, digits)

/-- The value of digits in a base, after digits with this value. Separators count for nothing. -/
def digitsValue (base : Nat) : Option Nat → List Char → Option Nat
  | value, [] => value
  | value, c :: rest =>
    if c = '_' then digitsValue base value rest
    else
      match Lexer.hexDigit? c with
      | some digit =>
        if digit < base then digitsValue base (some (value.getD 0 * base + digit)) rest else none
      | none => none

/-- The number that characters spell, in decimal. -/
def numberOf? (chars : List Char) : Option String :=
  let (base, digits) := splitBase chars
  if chars.head?.any Char.isDigit then
    match digitsValue base none digits with
    | some value => if value < Nat.pow 2 32 then some (toString value) else none
    | none => none
  else none

/-- The number of a field, in decimal. -/
def fieldNumber? (text : String) : Option String := numberOf? text.toList

/-- The pieces between points. -/
def pointPieces : List Char → List (List Char)
  | [] => [[]]
  | c :: rest =>
    match pointPieces rest with
    | piece :: others => if c = '.' then [] :: piece :: others else (c :: piece) :: others
    | [] => [[c]]

/-- The numbers of fields inside each other, and whether a point at the end asks for one more. -/
def fieldNumbers? (text : String) : Option (List String × Bool) :=
  let pieces := pointPieces text.toList
  let unfinished := pieces.getLast? == some []
  let numbers := if unfinished then pieces.dropLast else pieces
  (numbers.mapM numberOf?).map fun names => (names, unfinished)

end CopySynth.Reader
