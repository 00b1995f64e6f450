/-!
# Fractions of natural numbers

Exact quotients, not reduced. They are scaled by powers of a base and rounded at the end, so that no
digit is lost on the way.
-/

namespace BuilderFields

structure Fraction where
  num : Nat
  den : Nat
deriving Repr, DecidableEq

namespace Fraction

def whole (n : Nat) : Fraction where
  num := n
  den := 1

def scale (x : Fraction) (base : Nat) (power : Int) : Fraction where
  num := x.num * Nat.pow base power.toNat
  den := x.den * Nat.pow base (-power).toNat

def floor (x : Fraction) : Nat :=
  x.num / x.den

/-- The nearest natural number; a half goes to the even neighbour. -/
def round (x : Fraction) : Nat :=
  let quotient := x.num / x.den
  let twice := 2 * (x.num % x.den)
  if twice < x.den then quotient
  else if x.den < twice then quotient + 1
  else if quotient % 2 = 0 then quotient
  else quotient + 1

def belowOne (x : Fraction) : Bool :=
  x.num < x.den

def digitCount (n : Nat) : Nat :=
  (toString n).length

/-- The place of the leading decimal digit: a positive fraction is below ten to this power, and not
below a tenth of it. -/
def decimalPlace (x : Fraction) : Int :=
  let estimate : Int := (digitCount x.num : Int) - digitCount x.den
  if (x.scale 10 (-estimate)).belowOne then estimate else estimate + 1

theorem round_eq_floor_or (x : Fraction) : x.round = x.floor ∨ x.round = x.floor + 1 := by
  simp only [round, floor]
  split
  · exact Or.inl rfl
  · split
    · exact Or.inr rfl
    · split
      · exact Or.inl rfl
      · exact Or.inr rfl

end Fraction

end BuilderFields
