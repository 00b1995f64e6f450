import BuilderFields.Text.Hex
import BuilderFields.Text.HiddenTable
import BuilderFields.Text.Letter

/-!
# Quoted text

How text is shown inside messages: between single quotes, or between double quotes where that saves an
escape, with hidden characters written by number. Lists, absent values and truth values have their own
forms beside it.
-/

namespace BuilderFields.Text

/-- Characters without a visible form of their own, the space excepted. -/
def isHidden (c : Char) : Bool :=
  if c.toNat < 128 then c.toNat < 32 || c.toNat = 127 else covers hiddenRanges c.toNat

/-- A single quote in the text asks for double quotes, unless the text holds those too. -/
def quoteMark (cs : List Char) : Char :=
  if cs.contains '\'' && !cs.contains '"' then '"' else '\''

def escapeByNumber (code : Nat) : List Char :=
  if code ≤ 0xFF then '\\' :: 'x' :: hexDigits 2 code
  else if code ≤ 0xFFFF then '\\' :: 'u' :: hexDigits 4 code
  else '\\' :: 'U' :: hexDigits 8 code

def escapeChar (mark c : Char) : List Char :=
  if c = mark ∨ c = '\\' then ['\\', c]
  else if c = '\n' then ['\\', 'n']
  else if c = '\r' then ['\\', 'r']
  else if c = '\t' then ['\\', 't']
  else if isHidden c then escapeByNumber c.toNat
  else [c]

def quote (s : String) : String :=
  let mark := quoteMark s.toList
  String.ofList (mark :: (s.toList.flatMap (escapeChar mark) ++ [mark]))

def asciiOnly (s : String) : String :=
  String.ofList (s.toList.flatMap fun c => if c.toNat < 128 then [c] else escapeByNumber c.toNat)

def quoteOption : Option String → String
  | none => "None"
  | some s => quote s

def showTruth (b : Bool) : String :=
  if b then "True" else "False"

def commaJoin (items : List String) : String :=
  ", ".intercalate items

def quoteList (items : List String) : String :=
  "[" ++ commaJoin (items.map quote) ++ "]"

/-- Items between parentheses; a single item keeps a comma behind it. -/
def showTuple : List String → String
  | [item] => "(" ++ item ++ ",)"
  | items => "(" ++ commaJoin items ++ ")"

end BuilderFields.Text
