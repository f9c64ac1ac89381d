/-!
# Ranges of code points

A character class beyond ASCII is a list of closed ranges of code points. A class is tested by its
ASCII rule first, so a test on an ASCII character never walks the list.
-/

namespace CopySynth.Text

/-- Closed ranges of code points. -/
abbrev Ranges := List (Nat × Nat)

/-- Whether a code point lies in one of the ranges. -/
def Ranges.contains (ranges : Ranges) (point : Nat) : Bool :=
  ranges.any fun range => range.1 ≤ point && point ≤ range.2

/-- A class of characters: an ASCII rule, and ranges for all other characters. -/
structure CharClass where
  /-- The rule for the characters below 128. -/
  ascii : Char → Bool
  /-- The members from 128 on. -/
  beyond : Ranges

/-- Whether a character belongs to the class. -/
def CharClass.contains (cls : CharClass) (c : Char) : Bool :=
  if c.toNat < 128 then cls.ascii c else cls.beyond.contains c.toNat

theorem CharClass.contains_ascii (cls : CharClass) {c : Char} (h : c.toNat < 128) :
    cls.contains c = cls.ascii c := by
  simp [CharClass.contains, h]

end CopySynth.Text
