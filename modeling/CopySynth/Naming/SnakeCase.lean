import CopySynth.Text.LetterCase

/-!
# Snake case

A name is written in snake case by lowering its ASCII capitals, by an underscore before each
capital that follows a small letter or a digit, and by an underscore in the place of each hyphen
and space. Capitals beyond ASCII count as capitals and are kept as they are.
-/

namespace CopySynth.Naming

/-- Whether a capital right after this character starts a new word. -/
def endsWord (c : Char) : Bool := Text.isLowercase c || c.isDigit

/-- Snake case of the characters that follow; `afterWord` tells whether a capital now starts a new
word. -/
def snakeChars (afterWord : Bool) : List Char → List Char
  | [] => []
  | c :: rest =>
    if c == '-' || c == ' ' then '_' :: snakeChars false rest
    else if Text.isUppercase c then
      if afterWord then '_' :: c.toLower :: snakeChars false rest
      else c.toLower :: snakeChars false rest
    else c :: snakeChars (endsWord c) rest

/-- The name in snake case. -/
def snakeCase (name : String) : String := String.ofList (snakeChars false name.toList)

end CopySynth.Naming
