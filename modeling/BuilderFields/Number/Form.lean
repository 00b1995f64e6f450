import BuilderFields.Number.Digits

/-!
# Forms of numbers

A form says which digits of a number are written and how they are laid out. The text of a number is
its magnitude; whether a minus sign belongs before it is told apart from it.
-/

namespace BuilderFields

inductive NumberStyle
  | scientific
  | fixed
  /-- Whichever of the two is shorter, without zeros at the end. -/
  | general
  /-- The fewest digits that read back. -/
  | shortest
deriving Repr, DecidableEq

structure NumberForm where
  style : NumberStyle
  /-- Digits after the point, or significant digits in general style. -/
  precision : Nat
  /-- The point and the zeros behind it are kept. -/
  alternate : Bool
  /-- A whole number keeps one digit after its point. -/
  pointed : Bool
  /-- What rounds to zero has no sign. -/
  unsignedZero : Bool
  upper : Bool
deriving Repr, DecidableEq

structure NumberText where
  negative : Bool
  text : List Char
deriving Repr, DecidableEq

namespace NumberForm

def plain : NumberForm where
  style := .shortest
  precision := 0
  alternate := false
  pointed := true
  unsignedZero := false
  upper := false

/-- In general and in shortest style an exponent is used below this place of the point. -/
def leastPoint : Int := -4

/-- In shortest style an exponent is used beyond this place of the point. -/
def greatestPoint : Int := 16

def digitsOf (form : NumberForm) (significand : Nat) (exponent : Int) : Digits :=
  match form.style with
  | .scientific => .significant (Binary64.magnitude significand exponent) (form.precision + 1)
  | .fixed => .fixed (Binary64.magnitude significand exponent) form.precision
  | .general => .significant (Binary64.magnitude significand exponent) (max form.precision 1)
  | .shortest => .shortest significand exponent

def usesExponent (form : NumberForm) (point : Int) : Bool :=
  match form.style with
  | .scientific => true
  | .fixed => false
  | .general =>
    point ≤ leastPoint || max form.precision 1 - (if form.pointed then 1 else 0) < point
  | .shortest => point ≤ leastPoint || greatestPoint < point

def shownCount (form : NumberForm) (d : Digits) : Int :=
  match form.style with
  | .scientific => form.precision + 1
  | .fixed => d.point + form.precision
  | .general => if form.alternate then max form.precision 1 else d.digits.length
  | .shortest => d.digits.length

def digitsBetween (d : Digits) (start stop : Int) : List Char :=
  (List.range (stop - start).toNat).map fun (offset : Nat) => d.digitAt (start + (offset : Int))

def withPoint (form : NumberForm) (d : Digits) (point places : Int) : List Char :=
  let whole := if point ≤ 0 then ['0'] else digitsBetween d 0 point
  let fraction := digitsBetween d point (point + places)
  if fraction.isEmpty then
    if form.alternate then whole ++ ['.'] else whole
  else
    whole ++ '.' :: fraction

/-- An exponent has a sign and at least two digits. -/
def exponentText (form : NumberForm) (exponent : Int) : List Char :=
  let digits := (toString exponent.natAbs).toList
  (if form.upper then 'E' else 'e') :: (if exponent < 0 then '-' else '+') ::
    (List.replicate (2 - digits.length) '0' ++ digits)

def layOut (form : NumberForm) (d : Digits) : List Char :=
  if form.usesExponent d.point then
    withPoint form d 1 (form.shownCount d - 1) ++ form.exponentText (d.point - 1)
  else
    let places := max (form.shownCount d - d.point) 0
    withPoint form d d.point (if form.pointed then max places 1 else places)

def write (form : NumberForm) : Binary64 → NumberText
  | .finite negative significand exponent =>
    let d := form.digitsOf significand exponent
    ⟨negative && !(form.unsignedZero && d.isZero), form.layOut d⟩
  | .infinite negative => ⟨negative, (if form.upper then "INF" else "inf").toList⟩
  | .undefined => ⟨false, (if form.upper then "NAN" else "nan").toList⟩

end NumberForm

def NumberText.signed (number : NumberText) : List Char :=
  if number.negative then '-' :: number.text else number.text

end BuilderFields
