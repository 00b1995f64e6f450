import BuilderFields.Number.Binary64

/-!
# Decimal digits of a number

Digits are selected in three ways: so many significant ones, so many after the point, or as few as read
back to the same number. The first two round the exact value, with ties to the even neighbour.
-/

namespace BuilderFields

/-- Digits without zeros at their end, and how far to the right of their start the point stands. -/
structure Digits where
  digits : List Char
  point : Int
deriving Repr, DecidableEq

namespace Digits

/-- The digits of a natural number times a power of ten; zero is a single digit before the point. -/
def ofNat (n : Nat) (exponent : Int) : Digits :=
  if n = 0 then
    ⟨['0'], 1⟩
  else
    let digits := (toString n).toList
    ⟨(digits.reverse.dropWhile (· = '0')).reverse, digits.length + exponent⟩

def digitAt (d : Digits) (place : Int) : Char :=
  if place < 0 then '0' else d.digits.getD place.toNat '0'

def isZero (d : Digits) : Bool :=
  d.digits = ['0']

def significant (x : Fraction) (count : Nat) : Digits :=
  if x.num = 0 then
    ofNat 0 0
  else
    let place := x.decimalPlace
    ofNat (x.scale 10 (count - place)).round (place - count)

def fixed (x : Fraction) (places : Nat) : Digits :=
  ofNat (x.scale 10 places).round (-places)

/-- As many digits are enough for every number to read back. -/
def sufficientCount : Nat := 17

def readingBack? (value : Binary64) (x : Fraction) (count : Nat) : Option Digits :=
  let place := x.decimalPlace
  let scaled := x.scale 10 (count - place)
  let nearest := scaled.round
  let other := if nearest = scaled.floor then nearest + 1 else scaled.floor
  let readsBack (n : Nat) : Bool :=
    Binary64.ofFraction false ((Fraction.whole n).scale 10 (place - count)) = value
  ([nearest, other].find? readsBack).map fun n => ofNat n (place - count)

/-- The fewest digits that read back to a finite magnitude. -/
def shortest (significand : Nat) (exponent : Int) : Digits :=
  let x := Binary64.magnitude significand exponent
  if x.num = 0 then
    ofNat 0 0
  else
    let value := Binary64.ofFraction false x
    let counts := (List.range sufficientCount).map (· + 1)
    (counts.findSome? (readingBack? value x)).getD (significant x sufficientCount)

end Digits

end BuilderFields
