import BuilderFields.Template.Directive
import BuilderFields.Template.Value

/-!
# Directives filled in

Directives take the arguments in order, an asterisk as well as a code, and all arguments have to be used.
A single argument that is an object with members is a mapping: keys choose from it, a directive without a
key takes it whole, and it need not be used.
-/

namespace BuilderFields

namespace Template

structure Supply where
  mapping : Option (Entries String Json)
  waiting : List Json

def Supply.ofArguments : List Json → Supply
  | [.object (member :: members)] => ⟨some (member :: members), [.object (member :: members)]⟩
  | arguments => ⟨none, arguments⟩

def Supply.next (supply : Supply) : Except TemplateFault (Json × Supply) :=
  match supply.waiting with
  | [] => .error (.unsuitable .tooFew)
  | json :: rest => .ok (json, { supply with waiting := rest })

def Supply.select (supply : Supply) (key : DirectiveKey) : Except TemplateFault Supply :=
  match key, supply.mapping with
  | .absent, _ => .ok supply
  | _, none => .error (.unsuitable .notMapping)
  | .unclosed, some _ => .error (.malformed .incompleteKey)
  | .named key, some members =>
    match members.get? key with
    | some json => .ok { supply with waiting := [json] }
    | none => .error (.noSuchKey (Text.quote key))

def fitsWord (limit : Nat) (n : Int) : Bool :=
  -(limit : Int) - 1 ≤ n && n ≤ limit

def amountOf (supply : Supply) (amount : Amount) (limit : Nat) (tooBig : MalformedTemplate)
    (excess : ExcessiveNumber) : Except TemplateFault (Option Int × Supply) :=
  match amount with
  | .absent => .ok (none, supply)
  | .number n => .ok (some (n : Int), supply)
  | .tooBig => .error (.malformed tooBig)
  | .argument => do
    let (json, supply) ← supply.next
    match json.whole? with
    | none => .error (.unsuitable .amountNotWhole)
    | some n =>
      if fitsWord limit n then .ok (some n, supply) else .error (.excessive excess)

structure Instruction where
  flags : List Char
  width : Option Int
  precision : Option Nat
  code : Char
  place : Nat

namespace Instruction

def has (instruction : Instruction) (flag : Char) : Bool :=
  instruction.flags.contains flag

def layout (instruction : Instruction) (numeric : Bool) : Layout :=
  let width := instruction.width.getD 0
  let onLeft := instruction.has '-' || width < 0
  let zeros := numeric && instruction.has '0' && !onLeft
  { fill := if zeros then '0' else ' '
    align := if onLeft then .left else if zeros then .inner else .right
    width := width.natAbs
    grouping := none }

def signOf (instruction : Instruction) (negative : Bool) : List Char :=
  let rule : SignRule :=
    if instruction.has '+' then .plus else if instruction.has ' ' then .blank else .negativeOnly
  signText rule negative

def fillText (instruction : Instruction) (text : String) : Except TemplateFault (List Char) :=
  (instruction.layout false).text (match instruction.precision with
    | some length => text.toList.take length
    | none => text.toList)

def greatestDigitCount : Nat := 2147483644

def fillWhole (instruction : Instruction) (n : Int) : Except TemplateFault (List Char) :=
  let count := instruction.precision.getD 0
  if greatestDigitCount < count then
    .error (.excessive .digitCount)
  else
    (instruction.layout true).number {
      sign := instruction.signOf (n < 0)
      marker := if instruction.has '#' then markerOf instruction.code else []
      digits := zeroFilled count (digitsOf instruction.code n.natAbs)
      rest := [] }

def fillReal (instruction : Instruction) (value : Binary64) :
    Except TemplateFault (List Char) :=
  let form := formOf (some instruction.code) instruction.precision (instruction.has '#') false
  let number := form.write value
  (instruction.layout true).number (splitNumber (instruction.signOf number.negative) number.text)

/-- The whole number that a value counts as where decimal digits are asked for; real numbers lose what
is behind the point. -/
def wholeOf (code : Char) (json : Json) : Except TemplateFault Int :=
  match json, json.whole? with
  | _, some n => .ok n
  | .decimal spelling, none =>
    match Binary64.ofSpelling spelling with
    | .finite negative significand exponent =>
      let magnitude : Int := (Binary64.magnitude significand exponent).floor
      .ok (if negative then -magnitude else magnitude)
    | .infinite _ => .error (.excessive .infinite)
    | .undefined => .error .undefinedNumber
  | json, none => .error (.unsuitable (.notReal code json.kindName))

def realOf (json : Json) : Except TemplateFault Binary64 :=
  match json, json.whole? with
  | _, some n => realOfWhole n
  | .decimal spelling, none => .ok (.ofSpelling spelling)
  | json, none => .error (.unsuitable (.notNumber json.kindName))

def characterFor (json : Json) : Except TemplateFault Char :=
  match json, json.whole? with
  | _, some n => characterOf n
  | .text s, none =>
    match s.toList with
    | [c] => .ok c
    | _ => .error (.unsuitable .notCharacter)
  | _, none => .error (.unsuitable .notCharacter)

def fill (instruction : Instruction) (json : Json) : Except TemplateFault (List Char) :=
  let code := instruction.code
  if code = 's' then instruction.fillText json.running
  else if code = 'r' then instruction.fillText json.display
  else if code = 'a' then instruction.fillText (Text.asciiOnly json.display)
  else if code = 'd' ∨ code = 'i' ∨ code = 'u' then do
    let n ← wholeOf code json
    instruction.fillWhole n
  else if code = 'o' ∨ code = 'x' ∨ code = 'X' then
    match json.whole? with
    | some n => instruction.fillWhole n
    | none => .error (.unsuitable (.notWhole code json.kindName))
  else if code ∈ ['e', 'E', 'f', 'F', 'g', 'G'] then do
    let value ← realOf json
    instruction.fillReal value
  else if code = 'c' then do
    let c ← characterFor json
    (instruction.layout false).text [c]
  else
    .error (.malformed (.unknownDirective code instruction.place))

end Instruction

def fillDirective (length : Nat) (supply : Supply) (directive : Directive) :
    Except TemplateFault (List Char × Supply) := do
  let supply ← supply.select directive.key
  let (width, supply) ←
    amountOf supply directive.width Directive.greatestWidth .widthTooBig .width
  let (precision, supply) ←
    amountOf supply directive.precision Directive.greatestPrecision .precisionTooBig .precision
  match directive.code with
  | none => .error (.malformed .incompleteDirective)
  | some code =>
    let (json, supply) ← supply.next
    let instruction : Instruction :=
      ⟨directive.flags, width, precision.map Int.toNat, code, length - directive.left⟩
    let text ← instruction.fill json
    .ok (text, supply)

def fillPercents (length : Nat) : Supply → List PercentPiece → Except TemplateFault (List Char)
  | supply, [] =>
    if supply.mapping.isNone ∧ supply.waiting ≠ [] then .error (.unsuitable .tooMany) else .ok []
  | supply, .char c :: rest => (fillPercents length supply rest).map (c :: ·)
  | supply, .directive directive :: rest => do
    let (first, supply) ← fillDirective length supply directive
    let text ← fillPercents length supply rest
    .ok (first ++ text)

/-- A message with its directives filled in; without arguments it is no template. -/
def percents (message : String) (arguments : List Json) : Except TemplateFault String :=
  if arguments.isEmpty then .ok message
  else
    let cs := message.toList
    (fillPercents cs.length (.ofArguments arguments) (Directive.pieces cs)).map String.ofList

end Template

end BuilderFields
