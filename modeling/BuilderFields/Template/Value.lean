import BuilderFields.Template.Spec
import BuilderFields.Template.Subject

/-!
# Filled-in values

A value without format instructions is running text. Under instructions text is cut and padded, a whole
number is written in a base, as a character or as a real number, and a real number is written in the form
that the code and the precision ask for. Other values take no instructions.
-/

namespace BuilderFields

def signText (rule : SignRule) (negative : Bool) : List Char :=
  if negative then ['-']
  else
    match rule with
    | .negativeOnly => []
    | .plus => ['+']
    | .blank => [' ']

def splitNumber (sign text : List Char) : NumberParts where
  sign := sign
  marker := []
  digits := text.takeWhile Char.isDigit
  rest := text.dropWhile Char.isDigit

def baseOf (code : Char) : Nat :=
  if code = 'b' then 2
  else if code = 'o' then 8
  else if code = 'x' ∨ code = 'X' then 16
  else 10

def markerOf (code : Char) : List Char :=
  if baseOf code = 10 then [] else ['0', code]

def digitsOf (code : Char) (magnitude : Nat) : List Char :=
  let digits := Nat.toDigits (baseOf code) magnitude
  if code = 'X' then digits.map Char.toUpper else digits

def greatestPrecision : Nat := 2147483647

def defaultPrecision : Nat := 6

def formOf (code : Option Char) (precision : Option Nat) (alternate unsignedZero : Bool) :
    NumberForm :=
  let style : NumberStyle :=
    match code, precision with
    | none, none => .shortest
    | none, some _ => .general
    | some code, _ =>
      if code = 'e' ∨ code = 'E' then .scientific
      else if code = 'f' ∨ code = 'F' ∨ code = '%' then .fixed
      else .general
  { style := style
    precision := precision.getD defaultPrecision
    alternate := alternate
    pointed := code.isNone
    unsignedZero := unsignedZero
    upper := code ∈ [some 'E', some 'F', some 'G'] }

/-- Numbers of more than a word are refused before they are looked up as characters. -/
def greatestWord : Int := 9223372036854775807

def characterOf (n : Int) : Except TemplateFault Char :=
  if 0 ≤ n ∧ n < 0x110000 then .ok (Char.ofNat n.toNat) else .error (.excessive .character)

def realOfWhole (n : Int) : Except TemplateFault Binary64 :=
  match Binary64.ofInt n with
  | .infinite _ => .error (.excessive .wholeForReal)
  | value => .ok value

namespace FormatSpec

def formatText (spec : FormatSpec) (text : String) : Except TemplateFault (List Char) :=
  if spec.sign = some .blank then .error (.malformed .blankSignForText)
  else if spec.sign.isSome then .error (.malformed .signForText)
  else if spec.unsignedZero then .error (.malformed .unsignedZeroForText)
  else if spec.alternate then .error (.malformed .alternateForText)
  else if spec.layout.align = .inner then .error (.malformed .innerAlignForText)
  else
    spec.layout.text (match spec.precision with
      | some length => text.toList.take length
      | none => text.toList)

def formatReal (spec : FormatSpec) (value : Binary64) : Except TemplateFault (List Char) :=
  if greatestPrecision < spec.precision.getD 0 then
    .error (.malformed .precisionTooBig)
  else
    let code := if spec.code = some '\x00' then none else spec.code
    let asPercent := code = some '%'
    let form := formOf code spec.precision spec.alternate spec.unsignedZero
    let number := form.write (if asPercent then value.percent else value)
    let sign := signText (spec.sign.getD .negativeOnly) number.negative
    spec.layout.number (splitNumber sign (number.text ++ if asPercent then ['%'] else []))

def formatCharacter (spec : FormatSpec) (n : Int) : Except TemplateFault (List Char) :=
  if spec.sign.isSome then .error (.malformed .signForCharacter)
  else if spec.alternate then .error (.malformed .alternateForCharacter)
  else if n < -greatestWord - 1 ∨ greatestWord < n then .error (.excessive .characterCode)
  else do
    let c ← characterOf n
    spec.layout.number ⟨[], [], [], [c]⟩

def formatWhole (spec : FormatSpec) (code : Char) (n : Int) : Except TemplateFault (List Char) :=
  if spec.precision.isSome then .error (.malformed .precisionForWhole)
  else if spec.unsignedZero then .error (.malformed .unsignedZeroForWhole)
  else if code = 'c' then spec.formatCharacter n
  else
    spec.layout.number {
      sign := signText (spec.sign.getD .negativeOnly) (n < 0)
      marker := if spec.alternate then markerOf code else []
      digits := digitsOf code n.natAbs
      rest := [] }

def isWholeCode (code : Char) : Bool :=
  code ∈ ['b', 'c', 'd', 'o', 'x', 'X', 'n']

def isRealCode (code : Char) : Bool :=
  code ∈ ['e', 'E', 'f', 'F', 'g', 'G', '%']

end FormatSpec

namespace Subject

open FormatSpec

def formatAsText (kind text : String) (instructions : List Char) :
    Except TemplateFault (List Char) := do
  let spec ← (FormatSpec.parse ⟨kind, false, some 's'⟩ instructions).mapError .malformed
  if spec.code = some 's' then spec.formatText text
  else .error (.malformed (.unknownCode (spec.code.getD 's') kind))

def formatAsWhole (kind : String) (n : Int) (instructions : List Char) :
    Except TemplateFault (List Char) := do
  let spec ← (FormatSpec.parse ⟨kind, true, some 'd'⟩ instructions).mapError .malformed
  let code := spec.code.getD 'd'
  if isWholeCode code then
    spec.formatWhole code n
  else if isRealCode code then do
    let value ← realOfWhole n
    spec.formatReal value
  else
    .error (.malformed (.unknownCode code kind))

def formatAsReal (kind : String) (value : Binary64) (instructions : List Char) :
    Except TemplateFault (List Char) := do
  let spec ← (FormatSpec.parse ⟨kind, true, none⟩ instructions).mapError .malformed
  let code := spec.code.getD '\x00'
  if isRealCode code || code = 'n' || code = '\x00' then spec.formatReal value
  else .error (.malformed (.unknownCode code kind))

def format (subject : Subject) (instructions : List Char) : Except TemplateFault (List Char) :=
  if instructions.isEmpty then
    .ok subject.running.toList
  else
    match subject with
    | value (.text s) => formatAsText subject.kindName s instructions
    | value (.decimal spelling) =>
      formatAsReal subject.kindName (.ofSpelling spelling) instructions
    | value json =>
      match json.whole? with
      | some n => formatAsWhole subject.kindName n instructions
      | none => .error (.unsuitable (.withoutSpec subject.kindName))
    | kind _ => .error (.unsuitable (.withoutSpec subject.kindName))

end Subject

end BuilderFields
