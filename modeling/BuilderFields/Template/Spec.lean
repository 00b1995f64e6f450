import BuilderFields.Template.Layout
import BuilderFields.Text.DecimalDigit

/-!
# Format instructions

Behind the name of a field may stand instructions: fill and alignment, sign, the marks for an unsigned
zero and for the alternate form, a zero for filling with zeros, the width, a separator of digit groups,
the precision and a code, each of them optional and in this order.
-/

namespace BuilderFields

inductive SignRule
  | negativeOnly
  | plus
  | blank
deriving Repr, DecidableEq

structure FormatSpec where
  layout : Layout
  /-- A sign rule, if one is written. -/
  sign : Option SignRule
  unsignedZero : Bool
  alternate : Bool
  precision : Option Nat
  code : Option Char
deriving Repr, DecidableEq

def greatestCount : Nat := 9223372036854775807

def takeCount (cs : List Char) : Except MalformedTemplate (Option Nat × List Char) :=
  let digits := cs.takeWhile Text.isDecimal
  let number := Text.decimalNumber digits
  if digits.isEmpty then .ok (none, cs)
  else if greatestCount < number then .error .numberTooLong
  else .ok (some number, cs.dropWhile Text.isDecimal)

namespace FormatSpec

def alignOf? : Char → Option Align
  | '<' => some .left
  | '>' => some .right
  | '^' => some .center
  | '=' => some .inner
  | _ => none

def takeAlign : List Char → (Option Char × Option Align) × List Char
  | fill :: mark :: rest =>
    match alignOf? mark with
    | some align => ((some fill, some align), rest)
    | none =>
      match alignOf? fill with
      | some align => ((none, some align), mark :: rest)
      | none => ((none, none), fill :: mark :: rest)
  | [mark] =>
    match alignOf? mark with
    | some align => ((none, some align), [])
    | none => ((none, none), [mark])
  | [] => ((none, none), [])

def takeSign : List Char → Option SignRule × List Char
  | '+' :: rest => (some .plus, rest)
  | '-' :: rest => (some .negativeOnly, rest)
  | ' ' :: rest => (some .blank, rest)
  | cs => (none, cs)

def takeMark (mark : Char) : List Char → Bool × List Char
  | c :: rest => if c = mark then (true, rest) else (false, c :: rest)
  | [] => (false, [])

def takeSeparator (cs : List Char) : Except MalformedTemplate (Option Char × List Char) :=
  let (comma, afterComma) := takeMark ',' cs
  let (underscore, rest) := takeMark '_' afterComma
  if underscore && (comma || rest.head? = some ',') then .error .twoSeparators
  else .ok (if comma then some ',' else if underscore then some '_' else none, rest)

def takePrecision (cs : List Char) : Except MalformedTemplate (Option Nat × List Char) :=
  match cs with
  | '.' :: rest =>
    match takeCount rest with
    | .ok (none, _) => .error .missingPrecision
    | taken => taken
  | cs => .ok (none, cs)

def isDecimalCode (code : Char) : Bool :=
  code ∈ ['d', 'e', 'f', 'g', 'E', 'G', '%', 'F', '\x00']

def isBaseCode (code : Char) : Bool :=
  code ∈ ['b', 'o', 'x', 'X']

/-- Digits come in groups of three, and in other bases in groups of four, which only the underscore
separates. -/
def groupingFor (separator : Char) (code : Option Char) : Except MalformedTemplate Grouping :=
  match code with
  | none => .ok ⟨separator, 3⟩
  | some code =>
    if isDecimalCode code then .ok ⟨separator, 3⟩
    else if isBaseCode code ∧ separator = '_' then .ok ⟨separator, 4⟩
    else .error (.separatorWithCode separator code)

structure Recipient where
  kind : String
  numeric : Bool
  code : Option Char

def parse (recipient : Recipient) (text : List Char) : Except MalformedTemplate FormatSpec := do
  let ((fill, align), rest) := takeAlign text
  let (sign, rest) := takeSign rest
  let (unsignedZero, rest) := takeMark 'z' rest
  let (alternate, rest) := takeMark '#' rest
  let (zeros, rest) := if fill.isNone then takeMark '0' rest else (false, rest)
  let (width, rest) ← takeCount rest
  let (separator, rest) ← takeSeparator rest
  let (precision, rest) ← takePrecision rest
  let code ←
    match rest with
    | [] => .ok recipient.code
    | [code] => .ok (some code)
    | _ => .error (.invalidSpec (String.ofList text) recipient.kind)
  let grouping ←
    match separator with
    | none => .ok none
    | some separator => some <$> groupingFor separator code
  let ownAlign : Align :=
    if recipient.numeric then (if zeros then .inner else .right) else .left
  .ok {
    layout := {
      fill := fill.getD (if zeros then '0' else ' ')
      align := align.getD ownAlign
      width := width.getD 0
      grouping := grouping }
    sign := sign
    unsignedZero := unsignedZero
    alternate := alternate
    precision := precision
    code := code }

end FormatSpec

end BuilderFields
