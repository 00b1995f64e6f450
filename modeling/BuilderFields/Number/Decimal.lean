/-!
# Decimal spellings

A decimal spelling has a sign, digits with an optional point, and an optional exponent. It denotes a
mantissa times a power of ten.
-/

namespace BuilderFields

structure Decimal where
  negative : Bool
  mantissa : Nat
  exponent : Int
deriving Repr, DecidableEq

namespace Decimal

def natOfDigits (digits : List Char) : Nat :=
  digits.foldl (fun n c => n * 10 + (c.toNat - 48)) 0

/-- Reads a number with an optional fraction and exponent; number constants are no decimals. -/
def ofSpelling? (spelling : String) : Option Decimal :=
  let cs := spelling.toList
  let negative := cs.head? = some '-'
  let body := if negative then cs.drop 1 else cs
  let whole := body.takeWhile Char.isDigit
  let afterWhole := body.dropWhile Char.isDigit
  let fraction :=
    if afterWhole.head? = some '.' then (afterWhole.drop 1).takeWhile Char.isDigit else []
  let afterFraction := (afterWhole.drop (if fraction.isEmpty then 0 else 1)).drop fraction.length
  let exponentText := afterFraction.drop 1
  let exponentDigits := exponentText.filter Char.isDigit
  let magnitude : Int := natOfDigits exponentDigits
  let exponent := if exponentText.head? = some '-' then -magnitude else magnitude
  if whole.isEmpty then
    none
  else
    some ⟨negative, natOfDigits (whole ++ fraction), exponent - fraction.length⟩

end Decimal

end BuilderFields
