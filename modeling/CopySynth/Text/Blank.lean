import CopySynth.Text.Ranges

/-!
# White space

The Unicode property `White_Space`, together with the two marks that set the direction of writing,
which separate words of code just as blanks do.
-/

namespace CopySynth.Text

/-- Characters that only separate words of code. -/
def blank : CharClass where
  ascii := fun c => c == ' ' || (9 ≤ c.toNat && c.toNat ≤ 13)
  beyond :=
    [(0x85, 0x85), (0xa0, 0xa0), (0x1680, 0x1680), (0x2000, 0x200a), (0x200e, 0x200f),
      (0x2028, 0x2029), (0x202f, 0x202f), (0x205f, 0x205f), (0x3000, 0x3000)]

/-- Whether a character only separates words of code. -/
def isBlank (c : Char) : Bool := blank.contains c

end CopySynth.Text
