import CopySynth.Code.Token
import CopySynth.Text.Blank
import CopySynth.Text.IdentifierChar
import CopySynth.Text.Printable

/-!
# Reading tokens

A text is cut into tokens from left to right. White space and comments separate tokens; a comment
that documents code stands for an attribute with its text. Each reader of a piece returns what is
left of the text after that piece.
-/

namespace CopySynth.Reader.Lexer

open Code (Bracket Token)
open CopySynth.Text (isBlank isIdentifierStart isIdentifierContinue isPrintable)

/-! ## Separators -/

/-- Whether the text after two slashes makes a comment that documents code. -/
def documentsLine : List Char → Bool
  | '/' :: '/' :: _ => false
  | '/' :: _ | '!' :: _ => true
  | _ => false

/-- Whether the text after a slash and an asterisk makes a comment that documents code. -/
def documentsBlock : List Char → Bool
  | '*' :: '/' :: _ | '*' :: '*' :: _ => false
  | '*' :: _ | '!' :: _ => true
  | _ => false

/-- Skips a comment to its closing mark, inside so many other comments. -/
def blockEnd : Nat → List Char → Option (List Char)
  | depth, '/' :: '*' :: rest => blockEnd (depth + 1) rest
  | 0, '*' :: '/' :: rest => some rest
  | depth + 1, '*' :: '/' :: rest => blockEnd depth rest
  | depth, _ :: rest => blockEnd depth rest
  | _, [] => none

/-- Skips a blank or a comment that documents nothing; a comment between marks has to be closed. -/
def separator : List Char → Option (List Char)
  | '/' :: '/' :: rest => if documentsLine rest then none else some (rest.dropWhile (· != '\n'))
  | '/' :: '*' :: rest => if documentsBlock rest then none else blockEnd 0 rest
  | c :: rest => if isBlank c then some rest else none
  | [] => none

/-- What stands before `rest` in `input`. -/
def lexeme (input rest : List Char) : String :=
  String.ofList (input.take (input.length - rest.length))

/-! ## Documentation -/

/-- Writes the characters of a text between quotes: quotes, backslashes and characters that are not
printed as they are get escaped. A zero before an octal digit takes two digits. -/
def escapedChars : List Char → List Char
  | [] => []
  | c :: rest =>
    let written :=
      if c = '\x00' then
        match rest with
        | next :: _ => if '0' ≤ next ∧ next ≤ '7' then "\\x00".toList else "\\0".toList
        | [] => "\\0".toList
      else if c = '\t' then "\\t".toList
      else if c = '\n' then "\\n".toList
      else if c = '\r' then "\\r".toList
      else if c = '"' ∨ c = '\\' then ['\\', c]
      else if isPrintable c then [c]
      else "\\u\x7b".toList ++ Nat.toDigits 16 c.toNat ++ ['}']
    written ++ escapedChars rest

/-- Whether a carriage return stands without a line feed behind it. -/
def hasBareReturn : List Char → Bool
  | '\r' :: '\n' :: rest => hasBareReturn rest
  | '\r' :: _ => true
  | _ :: rest => hasBareReturn rest
  | [] => false

/-- The attribute that a comment stands for: it documents what follows it, or, if `inner`, what it
stands in. -/
def documentTokens (inner : Bool) (text : List Char) : List Token :=
  let quoted := String.ofList ('"' :: escapedChars text ++ ['"'])
  match inner, Token.document quoted with
  | true, hash :: rest => hash :: .symbol '!' false :: rest
  | _, tokens => tokens

/-- Reads a comment that documents code. -/
def documentation (input : List Char) : Option (List Token × List Char) := do
  let (mark, text, rest) ← match input with
    | '/' :: '/' :: mark :: rest =>
      if documentsLine (mark :: rest) then
        let line := rest.takeWhile (· != '\n')
        let left := rest.dropWhile (· != '\n')
        let ended := !left.isEmpty && line.getLast? == some '\r'
        some (mark, if ended then line.dropLast else line, left)
      else none
    | '/' :: '*' :: mark :: rest =>
      if documentsBlock (mark :: rest) then do
        let left ← blockEnd 0 rest
        some (mark, rest.take (rest.length - left.length - 2), left)
      else none
    | _ => none
  if hasBareReturn text then none else some (documentTokens (mark == '!') text, rest)

/-! ## Words -/

/-- Skips an identifier. -/
def plainWord : List Char → Option (List Char)
  | c :: rest => if isIdentifierStart c then some (rest.dropWhile isIdentifierContinue) else none
  | [] => none

/-- Names that keep their meaning even when marked as raw. -/
def neverRaw : List String := ["_", "super", "self", "Self", "crate"]

/-- Skips an identifier, possibly marked as raw. -/
def anyWord : List Char → Option (List Char)
  | 'r' :: '#' :: rest => do
    let left ← plainWord rest
    if lexeme rest left ∈ neverRaw then none else some left
  | input => plainWord input

/-- Whether the text starts like a literal with a letter in front, and so with no identifier. -/
def startsLiteral : List Char → Bool
  | 'r' :: '"' :: _ | 'r' :: '#' :: '"' :: _ | 'r' :: '#' :: '#' :: _ => true
  | 'b' :: '"' :: _ | 'b' :: '\'' :: _ | 'b' :: 'r' :: '"' :: _ | 'b' :: 'r' :: '#' :: _ => true
  | 'c' :: '"' :: _ | 'c' :: 'r' :: '"' :: _ | 'c' :: 'r' :: '#' :: _ => true
  | _ => false

/-- Skips a word: an identifier or a keyword. -/
def word (input : List Char) : Option (List Char) :=
  if startsLiteral input then none else anyWord input

/-- Skips an identifier if there is one. -/
def suffix (input : List Char) : List Char := (plainWord input).getD input

/-! ## Texts and characters in quotes -/

/-- The kinds of quoted text: text, bytes, and text that ends with its first zero. -/
inductive Quoted where
  | text
  | bytes
  | zeroEnded

/-- Whether a character may stand for itself. -/
def Quoted.admits : Quoted → Char → Bool
  | .text, _ => true
  | .bytes, c => c.toNat < 128
  | .zeroEnded, c => c != '\x00'

/-- Where a reader of quoted text stands. -/
inductive Quote where
  /-- Between characters. -/
  | plain
  /-- After a carriage return, which a line feed must follow. -/
  | afterReturn
  /-- After a backslash. -/
  | escape
  /-- Before the first digit of a two-digit code. -/
  | highDigit
  /-- Before the second digit; the first was zero or not. -/
  | lowDigit (zero : Bool)
  /-- Before the brace of a code point. -/
  | codeOpen
  /-- Inside the braces of a code point, after so many digits with this value. -/
  | code (digits value : Nat)
  /-- In the blanks after a backslash that ends its line. -/
  | fold
  /-- After a carriage return in such blanks. -/
  | foldReturn

/-- What one character does to a reader of quoted text. -/
inductive Quote.Step where
  | next (state : Quote)
  | close
  | refuse

/-- The value of a hexadecimal digit. -/
def hexDigit? (c : Char) : Option Nat :=
  if '0' ≤ c ∧ c ≤ '9' then some (c.toNat - 48)
  else if 'a' ≤ c ∧ c ≤ 'f' then some (c.toNat - 87)
  else if 'A' ≤ c ∧ c ≤ 'F' then some (c.toNat - 55)
  else none

/-- A character that stands for itself, opens an escape or closes the quote. -/
def Quoted.plainStep (kind : Quoted) (c : Char) : Quote.Step :=
  if c = '"' then .close
  else if c = '\r' then .next .afterReturn
  else if c = '\\' then .next .escape
  else if kind.admits c then .next .plain
  else .refuse

/-- The character after a backslash. -/
def Quoted.escapeStep (kind : Quoted) (c : Char) : Quote.Step :=
  if c ∈ ['n', 'r', 't', '\\', '\'', '"'] then .next .plain
  else if c = '\n' then .next .fold
  else if c = '\r' then .next .foldReturn
  else if c = 'x' then .next .highDigit
  else match kind, c with
    | .text, '0' | .bytes, '0' => .next .plain
    | .text, 'u' | .zeroEnded, 'u' => .next .codeOpen
    | _, _ => .refuse

/-- A character inside the braces of a code point. -/
def Quoted.codeStep (kind : Quoted) (digits value : Nat) (c : Char) : Quote.Step :=
  match hexDigit? c with
  | some digit => if digits = 6 then .refuse else .next (.code (digits + 1) (value * 16 + digit))
  | none =>
    if digits = 0 then .refuse
    else if c = '_' then .next (.code digits value)
    else if c = '}' then
      match kind with
      | .zeroEnded => if value.isValidChar ∧ value ≠ 0 then .next .plain else .refuse
      | _ => if value.isValidChar then .next .plain else .refuse
    else .refuse

/-- One character of quoted text. -/
def Quoted.step (kind : Quoted) : Quote → Char → Quote.Step
  | .plain, c => kind.plainStep c
  | .afterReturn, c => if c = '\n' then .next .plain else .refuse
  | .escape, c => kind.escapeStep c
  | .highDigit, c =>
    match hexDigit? c, kind with
    | some digit, .text => if digit < 8 then .next (.lowDigit (digit == 0)) else .refuse
    | some digit, _ => .next (.lowDigit (digit == 0))
    | none, _ => .refuse
  | .lowDigit zero, c =>
    match hexDigit? c, kind with
    | some digit, .zeroEnded => if zero ∧ digit = 0 then .refuse else .next .plain
    | some _, _ => .next .plain
    | none, _ => .refuse
  | .codeOpen, c => if c = '{' then .next (.code 0 0) else .refuse
  | .code digits value, c => kind.codeStep digits value c
  | .fold, c =>
    if c = ' ' ∨ c = '\t' ∨ c = '\n' then .next .fold
    else if c = '\r' then .next .foldReturn
    else kind.plainStep c
  | .foldReturn, c => if c = '\n' then .next .fold else .refuse

/-- Skips quoted text and its closing quote. -/
def quoted (kind : Quoted) : Quote → List Char → Option (List Char)
  | _, [] => none
  | state, c :: rest =>
    match kind.step state c with
    | .next state => quoted kind state rest
    | .close => some rest
    | .refuse => none

/-- Skips the rest of an escape in a single quoted character. -/
def escaped (kind : Quoted) : Quote → List Char → Option (List Char)
  | _, [] => none
  | state, c :: rest =>
    match kind.step state c with
    | .next .plain => some rest
    | .next .fold | .next .foldReturn | .close | .refuse => none
    | .next state => escaped kind state rest

/-- Skips a single character and its closing quote. -/
def character (kind : Quoted) : List Char → Option (List Char)
  | [] => none
  | '\\' :: rest =>
    match escaped kind .escape rest with
    | some ('\'' :: left) => some left
    | _ => none
  | c :: '\'' :: rest => if kind.admits c then some rest else none
  | _ => none

/-- Skips raw text that a quote and this many hashes close. -/
def raw (kind : Quoted) (hashes : Nat) : List Char → Option (List Char)
  | [] => none
  | '"' :: rest =>
    if rest.take hashes = List.replicate hashes '#' then some (rest.drop hashes)
    else raw kind hashes rest
  | '\r' :: '\n' :: rest => raw kind hashes rest
  | '\r' :: _ => none
  | c :: rest => if kind.admits c then raw kind hashes rest else none

/-- Skips raw text, beginning with the hashes before its opening quote. -/
def hashedRaw (kind : Quoted) (input : List Char) : Option (List Char) :=
  let hashes := (input.takeWhile (· == '#')).length
  match input.drop hashes with
  | '"' :: rest => if hashes ≤ 255 then raw kind hashes rest else none
  | _ => none

/-! ## Numbers -/

/-- Whether a character is a decimal digit or the separator of digits. -/
def isDigitOrSeparator (c : Char) : Bool := c.isDigit || c == '_'

/-- Skips an exponent after its letter; without a digit there is none, and `otherwise` holds. -/
def exponent (otherwise : Option (List Char)) : Bool → Bool → List Char → Option (List Char)
  | _, seen, [] => if seen then some [] else otherwise
  | signed, seen, c :: rest =>
    if c == '+' || c == '-' then
      if seen then some (c :: rest)
      else if signed then otherwise
      else exponent otherwise true seen rest
    else if c.isDigit then exponent otherwise signed true rest
    else if c == '_' then exponent otherwise signed seen rest
    else if seen then some (c :: rest) else otherwise

/-- Skips the digits of a number with a point or an exponent. -/
def floatDigits (input : List Char) : Option (List Char) :=
  match input.dropWhile isDigitOrSeparator with
  | '.' :: rest =>
    let ends := match rest with
      | c :: _ => c == '.' || isIdentifierStart c
      | [] => false
    if ends then none
    else match rest.dropWhile isDigitOrSeparator with
      | 'e' :: more => exponent (some ('e' :: more)) false false more
      | 'E' :: more => exponent (some ('E' :: more)) false false more
      | left => some left
  | 'e' :: rest | 'E' :: rest => exponent none false false rest
  | _ => none

/-- Skips the digits of a whole number in this base. -/
def baseDigits (base : Nat) : Bool → List Char → Option (List Char)
  | seen, [] => if seen then some [] else none
  | seen, c :: rest =>
    if c.isDigit then
      if c.toNat - 48 < base then baseDigits base true rest else none
    else if base = 16 ∧ (hexDigit? c).isSome then baseDigits base true rest
    else if c = '_' then if seen ∨ base ≠ 10 then baseDigits base seen rest else none
    else if seen then some (c :: rest) else none

/-- Skips the digits of a whole number. -/
def wholeDigits : List Char → Option (List Char)
  | '0' :: 'x' :: rest => baseDigits 16 false rest
  | '0' :: 'o' :: rest => baseDigits 8 false rest
  | '0' :: 'b' :: rest => baseDigits 2 false rest
  | input => baseDigits 10 false input

/-- Skips the suffix of a number, after which no word may go on. -/
def numberEnd (input : List Char) : Option (List Char) :=
  match suffix input with
  | c :: rest => if isIdentifierContinue c then none else some (c :: rest)
  | [] => some []

/-- Skips a number. -/
def number (input : List Char) : Option (List Char) :=
  ((floatDigits input).bind numberEnd).or ((wholeDigits input).bind numberEnd)

/-! ## Tokens -/

/-- Skips the mark that stands for code that could not be read; it counts as a literal. -/
def unreadable (input : List Char) : Option (List Char) :=
  "(/*ERROR*/)".toList.isPrefixOf? input

/-- Skips a literal. -/
def literal : List Char → Option (List Char)
  | '"' :: rest => (quoted .text .plain rest).map suffix
  | 'r' :: rest => (hashedRaw .text rest).map suffix
  | 'b' :: '"' :: rest => (quoted .bytes .plain rest).map suffix
  | 'b' :: 'r' :: rest => (hashedRaw .bytes rest).map suffix
  | 'b' :: '\'' :: rest => (character .bytes rest).map suffix
  | 'c' :: '"' :: rest => (quoted .zeroEnded .plain rest).map suffix
  | 'c' :: 'r' :: rest => (hashedRaw .zeroEnded rest).map suffix
  | '\'' :: rest => (character .text rest).map suffix
  | '(' :: rest => unreadable ('(' :: rest)
  | c :: rest => if c.isDigit then number (c :: rest) else none
  | [] => none

/-- The characters that are symbols. -/
def symbolChars : List Char := "~!@#$%^&*-=+|;:,<.>/?'".toList

/-- Whether the text starts with a symbol and not with a comment. -/
def startsSymbol : List Char → Bool
  | '/' :: '/' :: _ | '/' :: '*' :: _ => false
  | c :: _ => c ∈ symbolChars
  | [] => false

/-- Reads a lifetime after its quote. A quote before what starts like a literal stands alone. -/
def lifetime (input : List Char) : Option (Token × List Char) := do
  let rest ← anyWord input
  let refused := match rest, input with
    | '\'' :: _, _ => true
    | '#' :: _, 'r' :: '#' :: _ => false
    | '#' :: _, _ => true
    | _, _ => false
  if refused then none
  else if (word input).isNone then some (.symbol '\'' true, input)
  else some (.lifetime ("'" ++ lexeme input rest), rest)

/-- Reads a symbol or a lifetime. -/
def symbol (input : List Char) : Option (Token × List Char) :=
  match input with
  | '\'' :: rest => lifetime rest
  | c :: rest => if startsSymbol input then some (.symbol c (startsSymbol rest), rest) else none
  | [] => none

/-- Reads a token other than a bracket. -/
def leaf (input : List Char) : Option (Token × List Char) :=
  match literal input with
  | some rest => some (.literal (lexeme input rest), rest)
  | none =>
    match symbol input with
    | some read => some read
    | none => (word input).map fun rest => (.word (lexeme input rest), rest)

/-- The bracket a character opens. -/
def opens? : Char → Option Bracket
  | '(' => some .round
  | '[' => some .square
  | '{' => some .curly
  | _ => none

/-- The bracket a character closes. -/
def closes? : Char → Option Bracket
  | ')' => some .round
  | ']' => some .square
  | '}' => some .curly
  | _ => none

/-- Reads tokens to the end; `pending` are the brackets still to be closed, innermost first, and
the first argument exceeds the number of characters. -/
def tokensFrom : Nat → List Bracket → List Char → Option (List Token)
  | 0, _, _ => none
  | _ + 1, pending, [] => if pending.isEmpty then some [] else none
  | steps + 1, pending, c :: rest =>
    match separator (c :: rest), documentation (c :: rest) with
    | some left, _ => tokensFrom steps pending left
    | none, some (tokens, left) => (tokensFrom steps pending left).map (tokens ++ ·)
    | none, none =>
      match leaf (c :: rest), opens? c, closes? c with
      | some (token, left), _, _ => (tokensFrom steps pending left).map (token :: ·)
      | none, some bracket, _ =>
        (tokensFrom steps (bracket :: pending) rest).map (.opening bracket :: ·)
      | none, none, some bracket =>
        match pending with
        | expected :: pending =>
          if expected = bracket then (tokensFrom steps pending rest).map (.closing bracket :: ·)
          else none
        | [] => none
      | none, none, none => none

/-- The mark that may stand before a text to show the order of its bytes. -/
def byteOrderMark : Char := '\ufeff'

/-- The tokens of a text, if all of it can be read and its brackets match. -/
def tokens? (text : String) : Option (List Token) :=
  match text.toList with
  | c :: rest =>
    if c = byteOrderMark then tokensFrom (rest.length + 1) [] rest
    else tokensFrom (rest.length + 2) [] (c :: rest)
  | [] => some []

end CopySynth.Reader.Lexer
