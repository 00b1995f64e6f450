import BuilderFields.Json
import BuilderFields.Taken
import BuilderFields.Text.Hex

/-!
# Reading JSON

A strict reader with two liberties: the number constants are accepted, and a repeated member overwrites
the first one in its place. A fault keeps the rest of the text from where it was met, so its position is
the length of the text less the length of that rest. Two faults point back: an unterminated string at its
opening quote, and a bad escape at the start of the escape.
-/

namespace BuilderFields.Json

inductive Problem
  | value
  | propertyName
  | colon
  | comma
  | extraData
  | unterminatedText
  | controlCharacter
  | escape
  | unicodeEscape
  | byteOrderMark
  /-- A whole number with more digits than are converted. -/
  | tooManyDigits (count : Nat)
deriving Repr, DecidableEq

structure ReadFault where
  problem : Problem
  /-- What was left of the text, from the fault on. -/
  rest : List Char
deriving Repr, DecidableEq

/-- Whole numbers beyond this many digits are refused. -/
def digitLimit : Nat := 4300

def isSpace (c : Char) : Bool :=
  c = ' ' || c = '\t' || c = '\n' || c = '\r'

def skipSpace (cs : List Char) : Taken cs Unit :=
  .skip isSpace cs

def shortEscape? : Char → Option Char
  | '"' => some '"'
  | '\\' => some '\\'
  | '/' => some '/'
  | 'b' => some '\x08'
  | 'f' => some '\x0c'
  | 'n' => some '\n'
  | 'r' => some '\r'
  | 't' => some '\t'
  | _ => none

def fourHexDigits? (a b c d : Char) : Option Nat := do
  let a ← Text.hexValue? a
  let b ← Text.hexValue? b
  let c ← Text.hexValue? c
  let d ← Text.hexValue? d
  some (((a * 16 + b) * 16 + c) * 16 + d)

def isHighSurrogate (unit : Nat) : Bool :=
  0xD800 ≤ unit && unit ≤ 0xDBFF

def isLowSurrogate (unit : Nat) : Bool :=
  0xDC00 ≤ unit && unit ≤ 0xDFFF

def joinSurrogates (high low : Nat) : Nat :=
  0x10000 + (high - 0xD800) * 0x400 + (low - 0xDC00)

/-- The character of a code unit; half of a surrogate pair becomes the replacement character. -/
def unitChar (unit : Nat) : Char :=
  if isHighSurrogate unit || isLowSurrogate unit then '\uFFFD' else Char.ofNat unit

/-- What follows the letter of a numbered escape. The closing quote has to come after the digits, and
two escapes that form a surrogate pair make one character. -/
def unicodeEscape (cs : List Char) : Except ReadFault (Taken cs Char) :=
  match cs with
  | a :: b :: c :: d :: next :: rest =>
    match fourHexDigits? a b c d with
    | none => .error ⟨.unicodeEscape, 'u' :: a :: b :: c :: d :: next :: rest⟩
    | some unit =>
      if isHighSurrogate unit then
        match next, rest with
        | '\\', 'u' :: e :: f :: g :: h :: after :: rest' =>
          match fourHexDigits? e f g h with
          | none => .error ⟨.unicodeEscape, 'u' :: e :: f :: g :: h :: after :: rest'⟩
          | some low =>
            if isLowSurrogate low then .ok (.drop 10 (Char.ofNat (joinSurrogates unit low)))
            else .ok (.drop 4 (unitChar unit))
        | _, _ => .ok (.drop 4 (unitChar unit))
      else
        .ok (.drop 4 (unitChar unit))
  | _ => .error ⟨.unicodeEscape, 'u' :: cs⟩

def stringBody (opening : List Char) (cs : List Char) :
    Except ReadFault (Taken cs (List Char)) :=
  match cs with
  | [] => .error ⟨.unterminatedText, opening⟩
  | c :: rest =>
    if c = '"' then
      .ok (.first [])
    else if c = '\\' then
      match rest with
      | [] => .error ⟨.unterminatedText, opening⟩
      | letter :: rest =>
        if letter = 'u' then do
          let char ← unicodeEscape rest
          let chars ← stringBody opening char.rest
          .ok (((char.andThen (chars.map (char.value :: ·))).behind letter).behind c)
        else
          match shortEscape? letter with
          | none => .error ⟨.escape, c :: letter :: rest⟩
          | some char => do
            let chars ← stringBody opening rest
            .ok (((chars.map (char :: ·)).behind letter).behind c)
    else if c.toNat < 32 then
      .error ⟨.controlCharacter, c :: rest⟩
    else do
      let chars ← stringBody opening rest
      .ok ((chars.map (c :: ·)).behind c)
termination_by cs.length
decreasing_by
  · have := char.length_le
    simp only [List.length_cons]
    omega
  · simp only [List.length_cons]
    omega
  · exact Nat.lt_succ_self _

/-- The digits of a whole number: a zero on its own, or digits that start with another one. -/
def integerDigits (cs : List Char) : List Char :=
  match cs with
  | [] => []
  | c :: rest => if c = '0' then [c] else if c.isDigit then c :: rest.takeWhile Char.isDigit else []

def fractionPart (cs : List Char) : List Char :=
  match cs with
  | '.' :: rest =>
    let digits := rest.takeWhile Char.isDigit
    if digits.isEmpty then [] else '.' :: digits
  | _ => []

def exponentPart (cs : List Char) : List Char :=
  match cs with
  | [] => []
  | e :: rest =>
    if e = 'e' ∨ e = 'E' then
      let sign := rest.take (if rest.head? = some '-' ∨ rest.head? = some '+' then 1 else 0)
      let digits := (rest.drop sign.length).takeWhile Char.isDigit
      if digits.isEmpty then [] else e :: sign ++ digits
    else
      []

def natOfDigits (digits : List Char) : Nat :=
  digits.foldl (fun n c => n * 10 + (c.toNat - 48)) 0

def number (cs : List Char) : Except ReadFault (Taken cs Json) :=
  let sign := cs.take (if cs.head? = some '-' then 1 else 0)
  let digits := integerDigits (cs.drop sign.length)
  if digits.isEmpty then
    .error ⟨.value, cs⟩
  else
    let size := sign.length + digits.length
    let fraction := fractionPart (cs.drop size)
    let exponent := exponentPart (cs.drop (size + fraction.length))
    if fraction.isEmpty && exponent.isEmpty then
      if digits.length > digitLimit then
        .error ⟨.tooManyDigits digits.length, cs⟩
      else
        let magnitude : Int := natOfDigits digits
        .ok (.drop size (.whole (if sign.isEmpty then magnitude else -magnitude)))
    else
      let spelling := sign ++ digits ++ fraction ++ exponent
      .ok (.drop spelling.length (.decimal (String.ofList spelling)))

def words : List (String × Json) :=
  [("null", .null), ("true", .truth true), ("false", .truth false), ("NaN", .decimal "NaN"),
    ("Infinity", .decimal "Infinity"), ("-Infinity", .decimal "-Infinity")]

def word? (cs : List Char) : Option (String × Json) :=
  words.find? fun word => word.1.toList.isPrefixOf cs

def colon (cs : List Char) : Except ReadFault (Taken cs Unit) :=
  match cs with
  | [] => .error ⟨.colon, []⟩
  | mark :: rest =>
    if mark = ':' then .ok ((skipSpace rest).behind mark) else .error ⟨.colon, mark :: rest⟩

def memberKey (cs : List Char) : Except ReadFault (Taken cs String) :=
  match cs with
  | [] => .error ⟨.propertyName, []⟩
  | quote :: rest =>
    if quote = '"' then do
      let key ← stringBody (quote :: rest) rest
      let space := skipSpace key.rest
      let mark ← colon space.rest
      .ok ((key.andThen (space.andThen (mark.map fun _ => String.ofList key.value))).behind quote)
    else
      .error ⟨.propertyName, quote :: rest⟩

mutual

def value (cs : List Char) : Except ReadFault (Taken cs Json) :=
  match cs with
  | [] => .error ⟨.value, []⟩
  | c :: rest =>
    if c = '"' then do
      let chars ← stringBody (c :: rest) rest
      .ok ((chars.map fun chars => .text (String.ofList chars)).behind c)
    else if c = '{' then do
      let space := skipSpace rest
      let members ← membersOrNone space.rest
      .ok ((space.andThen (members.map fun members => .object (Entries.ofList members))).behind c)
    else if c = '[' then do
      let space := skipSpace rest
      let items ← itemsOrNone space.rest
      .ok ((space.andThen (items.map .array)).behind c)
    else
      match word? (c :: rest) with
      | some (word, json) => .ok (.drop word.length json)
      | none => number (c :: rest)
termination_by (cs.length, 0)
decreasing_by
  all_goals
    have := (skipSpace rest).length_le
    simp only [List.length_cons, Prod.lex_def]
    omega

def itemsOrNone (cs : List Char) : Except ReadFault (Taken cs (List Json)) :=
  match cs with
  | [] => .error ⟨.value, []⟩
  | next :: rest => if next = ']' then .ok (.first []) else items (next :: rest)
termination_by (cs.length, 2)
decreasing_by exact Prod.Lex.right _ (by decide)

def items (cs : List Char) : Except ReadFault (Taken cs (List Json)) := do
  let first ← value cs
  let space := skipSpace first.rest
  let others ← itemsAfter space.rest
  .ok (first.andThen (space.andThen (others.map (first.value :: ·))))
termination_by (cs.length, 1)
decreasing_by
  · exact Prod.Lex.right _ (by decide)
  · have := first.length_le
    have := (skipSpace first.rest).length_le
    simp only [Prod.lex_def]
    omega

def itemsAfter (cs : List Char) : Except ReadFault (Taken cs (List Json)) :=
  match cs with
  | [] => .error ⟨.comma, []⟩
  | next :: rest =>
    if next = ']' then
      .ok (.first [])
    else if next = ',' then do
      let space := skipSpace rest
      let others ← items space.rest
      .ok ((space.andThen others).behind next)
    else
      .error ⟨.comma, next :: rest⟩
termination_by (cs.length, 0)
decreasing_by
  have := (skipSpace rest).length_le
  simp only [List.length_cons, Prod.lex_def]
  omega

def membersOrNone (cs : List Char) : Except ReadFault (Taken cs (List (String × Json))) :=
  match cs with
  | [] => .error ⟨.propertyName, []⟩
  | next :: rest => if next = '}' then .ok (.first []) else members (next :: rest)
termination_by (cs.length, 2)
decreasing_by exact Prod.Lex.right _ (by decide)

def members (cs : List Char) : Except ReadFault (Taken cs (List (String × Json))) := do
  let key ← memberKey cs
  let json ← value key.rest
  let space := skipSpace json.rest
  let others ← membersAfter space.rest
  let all := others.map ((key.value, json.value) :: ·)
  .ok (key.andThen (json.andThen (space.andThen all)))
termination_by (cs.length, 1)
decreasing_by
  · have := key.length_le
    simp only [Prod.lex_def]
    omega
  · have := key.length_le
    have := json.length_le
    have := (skipSpace json.rest).length_le
    simp only [Prod.lex_def]
    omega

def membersAfter (cs : List Char) : Except ReadFault (Taken cs (List (String × Json))) :=
  match cs with
  | [] => .error ⟨.comma, []⟩
  | next :: rest =>
    if next = '}' then
      .ok (.first [])
    else if next = ',' then do
      let space := skipSpace rest
      let others ← members space.rest
      .ok ((space.andThen others).behind next)
    else
      .error ⟨.comma, next :: rest⟩
termination_by (cs.length, 0)
decreasing_by
  have := (skipSpace rest).length_le
  simp only [List.length_cons, Prod.lex_def]
  omega

end

structure SyntaxFault where
  text : String
  fault : ReadFault
deriving Repr, DecidableEq

def parse (text : String) : Except SyntaxFault Json :=
  let cs := text.toList
  if cs.head? = some '\uFEFF' then
    .error ⟨text, .byteOrderMark, cs⟩
  else
    match value (skipSpace cs).rest with
    | .error fault => .error ⟨text, fault⟩
    | .ok json =>
      match (skipSpace json.rest).rest with
      | [] => .ok json.value
      | c :: after => .error ⟨text, .extraData, c :: after⟩

namespace SyntaxFault

def position (error : SyntaxFault) : Nat :=
  error.text.length - error.fault.rest.length

/-- Lines are counted from one and separated by line feeds only. -/
def line (error : SyntaxFault) : Nat :=
  (error.text.toList.take error.position).count '\n' + 1

def column (error : SyntaxFault) : Nat :=
  ((error.text.toList.take error.position).reverse.takeWhile (· ≠ '\n')).length + 1

def located (error : SyntaxFault) (what : String) : String :=
  what ++ ": line " ++ toString error.line ++ " column " ++ toString error.column ++
    " (char " ++ toString error.position ++ ")"

def message (error : SyntaxFault) : String :=
  match error.fault.problem with
  | .value => error.located "Expecting value"
  | .propertyName => error.located "Expecting property name enclosed in double quotes"
  | .colon => error.located "Expecting ':' delimiter"
  | .comma => error.located "Expecting ',' delimiter"
  | .extraData => error.located "Extra data"
  | .unterminatedText => error.located "Unterminated string starting at"
  | .controlCharacter => error.located "Invalid control character at"
  | .escape => error.located "Invalid \\escape"
  | .unicodeEscape => error.located "Invalid \\uXXXX escape"
  | .byteOrderMark => error.located "Unexpected UTF-8 BOM (decode using utf-8-sig)"
  | .tooManyDigits count =>
    "Exceeds the limit (" ++ toString digitLimit ++
      " digits) for integer string conversion: value has " ++ toString count ++
      " digits; use sys.set_int_max_str_digits() to increase the limit"

end SyntaxFault

end BuilderFields.Json
