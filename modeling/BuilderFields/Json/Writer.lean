import BuilderFields.Json
import BuilderFields.Text.Hex

/-!
# Writing JSON

The text of a value is ASCII whatever its strings hold: other characters are written as escaped code
units, two of them beyond the basic plane. Without an indentation the text is one line; with one, every
item and member has a line of its own, and an indentation below one puts all lines at the margin.
-/

namespace BuilderFields.Json

/-- A character code as one escaped unit, or as a surrogate pair. -/
def escapeCode (code : Nat) : List Char :=
  let unit (n : Nat) := '\\' :: 'u' :: Text.hexDigits 4 n
  if code < 0x10000 then
    unit code
  else
    unit (0xD800 + (code - 0x10000) / 0x400) ++ unit (0xDC00 + (code - 0x10000) % 0x400)

def writeChar (c : Char) : List Char :=
  if c = '"' then ['\\', '"']
  else if c = '\\' then ['\\', '\\']
  else if c = '\n' then ['\\', 'n']
  else if c = '\r' then ['\\', 'r']
  else if c = '\t' then ['\\', 't']
  else if c = '\x08' then ['\\', 'b']
  else if c = '\x0c' then ['\\', 'f']
  else if ' ' ≤ c ∧ c ≤ '~' then [c]
  else escapeCode c.toNat

def writeText (s : String) : List Char :=
  '"' :: (s.toList.flatMap writeChar ++ ['"'])

def lineBreak (indent : Option Int) (level : Nat) : List Char :=
  match indent with
  | none => []
  | some width => '\n' :: List.replicate (width.toNat * level) ' '

def separator (indent : Option Int) (level : Nat) : List Char :=
  match indent with
  | none => [',', ' ']
  | some _ => ',' :: lineBreak indent level

mutual

def writeAt (indent : Option Int) (level : Nat) : Json → List Char
  | .null => "null".toList
  | .truth value => (if value then "true" else "false").toList
  | .whole value => (toString value).toList
  | .decimal spelling => spelling.toList
  | .text value => writeText value
  | .array [] => ['[', ']']
  | .array (first :: rest) =>
    '[' :: (lineBreak indent (level + 1) ++ writeAt indent (level + 1) first ++
      writeItems indent (level + 1) rest ++ lineBreak indent level ++ [']'])
  | .object [] => ['{', '}']
  | .object ((key, value) :: rest) =>
    '{' :: (lineBreak indent (level + 1) ++ writeText key ++ [':', ' '] ++
      writeAt indent (level + 1) value ++ writeMembers indent (level + 1) rest ++
      lineBreak indent level ++ ['}'])

def writeItems (indent : Option Int) (level : Nat) : List Json → List Char
  | [] => []
  | item :: rest =>
    separator indent level ++ writeAt indent level item ++ writeItems indent level rest

def writeMembers (indent : Option Int) (level : Nat) : List (String × Json) → List Char
  | [] => []
  | (key, value) :: rest =>
    separator indent level ++ writeText key ++ [':', ' '] ++ writeAt indent level value ++
      writeMembers indent level rest

end

def write (indent : Option Int) (json : Json) : String :=
  String.ofList (writeAt indent 0 json)

end BuilderFields.Json
