import BuilderFields.Taken
import BuilderFields.Template.Fault

/-!
# Directives behind percent signs

A directive is a percent sign with an optional key between parentheses, flags, a width, a precision, a
size mark without a meaning, and a code. Width and precision are numbers or asterisks, which stand for
arguments. A text may end before its last directive is complete.
-/

namespace BuilderFields

inductive Amount
  | absent
  | number (n : Nat)
  | argument
  | tooBig
deriving Repr, DecidableEq

inductive DirectiveKey
  | absent
  | named (key : String)
  | unclosed
deriving Repr, DecidableEq

structure Directive where
  key : DirectiveKey
  flags : List Char
  width : Amount
  precision : Amount
  code : Option Char
  /-- How much of the text is left from the code on. -/
  left : Nat
deriving Repr, DecidableEq

inductive PercentPiece
  | char (c : Char)
  | directive (directive : Directive)
deriving Repr, DecidableEq

namespace Directive

variable {input : List Char}

/-- A key up to the parenthesis that closes it, so many inner ones being open. -/
def takeKey : Nat → (cs : List Char) → Option (Taken cs (List Char))
  | _, [] => none
  | inner, c :: rest =>
    if c = ')' then
      match inner with
      | 0 => some (.first [])
      | inner + 1 => (takeKey inner rest).map fun taken => (taken.map (c :: ·)).behind c
    else
      (takeKey (if c = '(' then inner + 1 else inner) rest).map fun taken =>
        (taken.map (c :: ·)).behind c

def takeOptionalKey : (cs : List Char) → Taken cs DirectiveKey
  | '(' :: rest =>
    match takeKey 0 rest with
    | some taken => (taken.map fun key => .named (String.ofList key)).behind '('
    | none => .drop (rest.length + 1) .unclosed
  | _ => .nothing .absent

def isFlag (c : Char) : Bool :=
  c ∈ ['-', '+', ' ', '#', '0']

def takeFlags (cs : List Char) : Taken cs (List Char) :=
  (Taken.skip isFlag cs).map fun _ => cs.takeWhile isFlag

def takeAmount (limit : Nat) (cs : List Char) : Taken cs Amount :=
  if cs.head? = some '*' then
    .drop 1 .argument
  else
    let digits := cs.takeWhile Char.isDigit
    let number := digits.foldl (fun n c => n * 10 + (c.toNat - 48)) 0
    (Taken.skip Char.isDigit cs).map fun _ =>
      if digits.isEmpty then .absent else if limit < number then .tooBig else .number number

/-- A point and the amount behind it, which is zero if none is written. -/
def takePrecision (limit : Nat) : (cs : List Char) → Taken cs Amount
  | '.' :: rest =>
    ((takeAmount limit rest).map fun amount =>
      if amount = .absent then .number 0 else amount).behind '.'
  | _ => .nothing .absent

def skipSize : (cs : List Char) → Taken cs Unit
  | c :: _ => .drop (if c ∈ ['h', 'l', 'L'] then 1 else 0) ()
  | [] => .nothing ()

def takeCode : (cs : List Char) → Taken cs (Option Char)
  | c :: _ => .first (some c)
  | [] => .nothing none

def greatestWidth : Nat := 9223372036854775807

def greatestPrecision : Nat := 2147483647

def take (cs : List Char) : Taken cs Directive :=
  let key := takeOptionalKey cs
  let flags := takeFlags key.rest
  let width := takeAmount greatestWidth flags.rest
  let precision := takePrecision greatestPrecision width.rest
  let size := skipSize precision.rest
  let code := takeCode size.rest
  let directive : Directive :=
    ⟨key.value, flags.value, width.value, precision.value, code.value, size.rest.length⟩
  (((((key.andThen flags).andThen width).andThen precision).andThen size).andThen code).map
    fun _ => directive

def pieces (cs : List Char) : List PercentPiece :=
  match cs with
  | [] => []
  | '%' :: '%' :: rest => .char '%' :: pieces rest
  | '%' :: rest => .directive (take rest).value :: pieces (take rest).rest
  | c :: rest => .char c :: pieces rest
termination_by cs.length
decreasing_by
  · simp only [List.length_cons]
    omega
  · exact Nat.lt_succ_of_le (take rest).length_le
  · exact Nat.lt_succ_self rest.length

end Directive

end BuilderFields
