import BuilderFields.Template.Fault

/-!
# Layout of filled-in values

A value is brought to a least width by a fill character on either side or, in a number, behind the sign.
A number's digits may be put into groups, counted from the last one; zeros that fill a number from
within are grouped as its digits are.
-/

namespace BuilderFields

inductive Align
  | left
  | right
  | center
  /-- Behind the sign of a number. -/
  | inner
deriving Repr, DecidableEq

structure Grouping where
  separator : Char
  size : Nat
deriving Repr, DecidableEq

structure Layout where
  fill : Char
  align : Align
  width : Nat
  grouping : Option Grouping
deriving Repr, DecidableEq

structure NumberParts where
  sign : List Char
  marker : List Char
  digits : List Char
  rest : List Char
deriving Repr, DecidableEq

namespace Grouping

/-- How many digits fill a width, with a separator before each further group. -/
def digitCount (grouping : Grouping) (width : Nat) : Nat :=
  width - (width - 1) / (grouping.size + 1)

def apply (grouping : Grouping) (digits : List Char) : List Char :=
  (digits.reverse.zipIdx.flatMap fun digit =>
    if digit.2 ≠ 0 ∧ digit.2 % grouping.size = 0 then [grouping.separator, digit.1]
    else [digit.1]).reverse

end Grouping

def zeroFilled (count : Nat) (digits : List Char) : List Char :=
  List.replicate (count - digits.length) '0' ++ digits

namespace Layout

def greatestWidth : Nat := 1099511627776

def filling (layout : Layout) (count : Nat) : List Char :=
  List.replicate count layout.fill

def padText (layout : Layout) (text : List Char) : List Char :=
  let missing := layout.width - text.length
  match layout.align with
  | .left | .inner => text ++ layout.filling missing
  | .right => layout.filling missing ++ text
  | .center => layout.filling (missing / 2) ++ text ++ layout.filling (missing - missing / 2)

def digitText (layout : Layout) (parts : NumberParts) : List Char :=
  let others := parts.sign.length + parts.marker.length + parts.rest.length
  let width := if layout.fill = '0' ∧ layout.align = .inner then layout.width - others else 0
  if parts.digits.isEmpty then []
  else
    match layout.grouping with
    | none => zeroFilled width parts.digits
    | some grouping => grouping.apply (zeroFilled (grouping.digitCount width) parts.digits)

def padNumber (layout : Layout) (parts : NumberParts) : List Char :=
  let front := parts.sign ++ parts.marker
  let back := layout.digitText parts ++ parts.rest
  match layout.align with
  | .inner => front ++ layout.filling (layout.width - (front ++ back).length) ++ back
  | _ => layout.padText (front ++ back)

def text (layout : Layout) (text : List Char) : Except TemplateFault (List Char) :=
  if greatestWidth < layout.width then .error .tooLong else .ok (layout.padText text)

def number (layout : Layout) (parts : NumberParts) : Except TemplateFault (List Char) :=
  if greatestWidth < layout.width then .error .tooLong else .ok (layout.padNumber parts)

end Layout

theorem zeroFilled_length (count : Nat) (digits : List Char) :
    (zeroFilled count digits).length = max count digits.length := by
  simp only [zeroFilled, List.length_append, List.length_replicate]
  omega

/-- A text shorter than the width comes to exactly the width. -/
theorem Layout.padText_length (layout : Layout) (text : List Char) :
    (layout.padText text).length = max layout.width text.length := by
  rcases layout with ⟨fill, _ | _ | _ | _, width, grouping⟩ <;>
    simp only [padText, filling, List.length_append, List.length_replicate] <;> omega

end BuilderFields
