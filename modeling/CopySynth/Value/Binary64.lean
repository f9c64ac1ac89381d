/-!
# Binary floating point

Numbers of 64 bits: a sign, eleven bits of exponent and 52 bits of fraction. A ratio of natural
numbers is rounded to the nearest of them, and to the even neighbour when it lies half-way, in exact
arithmetic.
-/

namespace CopySynth

/-- A floating point number, by its bits. -/
structure Binary64 where
  /-- The bits. -/
  bits : UInt64
  deriving DecidableEq, Repr

namespace Binary64

/-- The bits without the sign. -/
def magnitude (x : Binary64) : UInt64 := x.bits &&& 0x7fffffffffffffff

/-- The bits of infinity. -/
def infinityBits : UInt64 := 0x7ff0000000000000

/-- Zero. -/
def zero : Binary64 := ⟨0⟩

/-- Infinity. -/
def infinity : Binary64 := ⟨infinityBits⟩

/-- What is no number. -/
def nan : Binary64 := ⟨0x7ff8000000000000⟩

/-- Whether this is no number. -/
def isNaN (x : Binary64) : Bool := infinityBits < x.magnitude

/-- The number of the opposite sign. -/
def negate (x : Binary64) : Binary64 := ⟨x.bits ^^^ 0x8000000000000000⟩

/-- Equality of numbers: both zeros are equal, and what is no number equals nothing. -/
def equal (x y : Binary64) : Bool :=
  !x.isNaN && !y.isNaN && (x.bits == y.bits || (x.magnitude == 0 && y.magnitude == 0))

/-- The quotient rounded to the nearest whole number, a half to the even one. -/
def roundedQuotient (numerator denominator : Nat) : Nat :=
  let quotient := numerator / denominator
  let twice := 2 * (numerator % denominator)
  if twice < denominator then quotient
  else if denominator < twice then quotient + 1
  else quotient + quotient % 2

/-- A ratio divided by a power of two, rounded. -/
def scaledQuotient (numerator denominator : Nat) : Int → Nat
  | .ofNat exponent => roundedQuotient numerator (denominator * Nat.pow 2 exponent)
  | .negSucc exponent => roundedQuotient (numerator * Nat.pow 2 (exponent + 1)) denominator

/-- Whether a ratio reaches a power of two. -/
def reaches (numerator denominator : Nat) : Int → Bool
  | .ofNat exponent => denominator * Nat.pow 2 exponent ≤ numerator
  | .negSucc exponent => denominator ≤ numerator * Nat.pow 2 (exponent + 1)

/-- The number nearest to a ratio. The fraction is counted in units of a power of two that leaves it
53 bits, or of the smallest number there is. -/
def ofRatio (numerator denominator : Nat) : Binary64 :=
  if numerator = 0 then zero
  else
    let estimate : Int := (numerator.log2 : Int) - denominator.log2
    let lead := if reaches numerator denominator estimate then estimate else estimate - 1
    let unit := max (lead - 52) (-1074)
    let bits := (unit + 1074).toNat * Nat.pow 2 52 + scaledQuotient numerator denominator unit
    if bits < infinityBits.toNat then ⟨UInt64.ofNat bits⟩ else infinity

/-- The number nearest to `digits` times a power of ten. Powers far outside the range of numbers
are settled without computing them. -/
def ofDecimal (digits : Nat) (exponent : Int) : Binary64 :=
  let size := (Nat.toDigits 10 digits).length + exponent
  if digits = 0 ∨ size < -400 then zero
  else if 400 < size then infinity
  else match exponent with
    | .ofNat power => ofRatio (digits * Nat.pow 10 power) 1
    | .negSucc power => ofRatio digits (Nat.pow 10 (power + 1))

end Binary64

end CopySynth
