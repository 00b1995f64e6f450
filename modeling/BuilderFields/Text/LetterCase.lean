import BuilderFields.Text.Letter
import BuilderFields.Text.CaseTable

/-!
# Upper and lower case

The full case mappings: a character may become several, and a capital sigma at the end of a word
becomes the final form of the small letter. Whether a sigma ends its word is read off the text on both
sides of it, looking through marks such as the apostrophe.
-/

namespace BuilderFields.Text

/-- The mapping of one code point: an expansion if it has one, else its run, else itself. -/
def mapCode (expansions : List (Nat × List Nat)) (runs : List CaseRun) (code : Nat) : List Nat :=
  match expansions.lookup code with
  | some codes => codes
  | none => [(runs.findSome? (·.image? code)).getD code]

def upperChar (c : Char) : List Char :=
  if c.toNat < 128 then [c.toUpper]
  else (mapCode upperExpansions upperRuns c.toNat).map Char.ofNat

def lowerChar (c : Char) : List Char :=
  if c.toNat < 128 then [c.toLower]
  else (mapCode lowerExpansions lowerRuns c.toNat).map Char.ofNat

def isCaseIgnorable (c : Char) : Bool :=
  if c.toNat < 128 then c = '\'' || c = '.' || c = ':' || c = '^' || c = '\x60'
  else covers caseIgnorableRanges c.toNat

def isCased (c : Char) : Bool :=
  if c.toNat < 128 then c.isAlpha else covers casedRanges c.toNat

def meetsCased (cs : List Char) : Bool :=
  match cs.dropWhile isCaseIgnorable with
  | [] => false
  | c :: _ => isCased c

/-- The lower case of a text; `before` holds the characters already passed, the nearest first. -/
def lowerAfter (before : List Char) : List Char → List Char
  | [] => []
  | c :: rest =>
    let image :=
      if c = 'Σ' then
        if meetsCased before && !meetsCased rest then ['ς'] else ['σ']
      else
        lowerChar c
    image ++ lowerAfter (c :: before) rest

def upper (s : String) : String :=
  String.ofList (s.toList.flatMap upperChar)

def lower (s : String) : String :=
  String.ofList (lowerAfter [] s.toList)

def capitalizeFirst (s : String) : String :=
  match s.toList with
  | [] => ""
  | c :: rest => String.ofList (upperChar c ++ rest)

end BuilderFields.Text
