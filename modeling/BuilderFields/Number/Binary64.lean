import BuilderFields.Number.Decimal
import BuilderFields.Number.Fraction

/-!
# Numbers of 53 binary digits

A finite number is a significand of at most 53 binary digits times a power of two that is bounded on
both sides. Every fraction has a nearest number, a tie goes to the even significand, and what is too
large becomes infinite. Zero has a sign.
-/

namespace BuilderFields

inductive Binary64
  | finite (negative : Bool) (significand : Nat) (exponent : Int)
  | infinite (negative : Bool)
  /-- The value of no number. -/
  | undefined
deriving Repr, DecidableEq

namespace Binary64

def precision : Nat := 53

def leastExponent : Int := -1074

def greatestExponent : Int := 971

def zero (negative : Bool) : Binary64 :=
  finite negative 0 leastExponent

/-- The exponent at which the significand of a positive fraction has full precision, unless it is so
small that the least exponent applies. -/
def exponentFor (x : Fraction) : Int :=
  let estimate : Int := (Nat.log2 x.num : Int) - Nat.log2 x.den
  let low := max (estimate - precision) leastExponent
  if Nat.pow 2 precision ≤ (x.scale 2 (-low)).floor then low + 1 else low

def ofFraction (negative : Bool) (x : Fraction) : Binary64 :=
  if x.num = 0 then
    zero negative
  else
    let exponent := exponentFor x
    let significand := (x.scale 2 (-exponent)).round
    let carried := significand = Nat.pow 2 precision
    let exponent := if carried then exponent + 1 else exponent
    if greatestExponent < exponent then infinite negative
    else finite negative (if carried then Nat.pow 2 (precision - 1) else significand) exponent

def ofInt (n : Int) : Binary64 :=
  ofFraction (n < 0) (.whole n.natAbs)

/-- Decimal numbers from this place of their leading digit on are infinite. -/
def infinitePlace : Int := 400

/-- Decimal numbers up to this place of their leading digit are zero. -/
def zeroPlace : Int := -400

def ofDecimal (d : Decimal) : Binary64 :=
  let place : Int := Fraction.digitCount d.mantissa + d.exponent
  if d.mantissa = 0 ∨ place ≤ zeroPlace then zero d.negative
  else if infinitePlace ≤ place then infinite d.negative
  else ofFraction d.negative ((Fraction.whole d.mantissa).scale 10 d.exponent)

def ofSpelling (spelling : String) : Binary64 :=
  if spelling = "Infinity" then infinite false
  else if spelling = "-Infinity" then infinite true
  else
    match Decimal.ofSpelling? spelling with
    | some decimal => ofDecimal decimal
    | none => undefined

def magnitude (significand : Nat) (exponent : Int) : Fraction :=
  (Fraction.whole significand).scale 2 exponent

def percent : Binary64 → Binary64
  | finite negative significand exponent =>
    ofFraction negative (magnitude (significand * 100) exponent)
  | other => other

def isZero : Binary64 → Bool
  | finite _ significand _ => significand = 0
  | _ => false

end Binary64

end BuilderFields
