import BuilderFields.Taken
import BuilderFields.Template.Value

/-!
# Fields between braces

A template holds text and fields between braces; doubled braces stand for single ones. A field names an
argument by number or takes the next one, reaches into it by attributes and items, may ask for a shown
form, and may give format instructions, which may hold fields themselves. A template is read from left to
right: what is malformed matters only once everything before it is filled in.
-/

namespace BuilderFields

namespace Template

structure Field where
  name : List Char
  conversion : Option Char
  instructions : List Char
deriving Repr, DecidableEq

inductive Piece
  | char (c : Char)
  | field (field : Field)
  /-- Nothing can be read from here on. -/
  | broken (cause : MalformedTemplate)
deriving Repr, DecidableEq

/-- The name of a field, the mark that ends it, and what follows. A mark between brackets ends
nothing. -/
def takeFieldName : Bool → List Char → Except MalformedTemplate (List Char × Char × List Char)
  | _, [] => .error .unclosedField
  | true, c :: rest =>
    (takeFieldName (c ≠ ']') rest).map fun found => (c :: found.1, found.2)
  | false, c :: rest =>
    if c = '{' then .error .braceInFieldName
    else if c = '}' ∨ c = ':' ∨ c = '!' then .ok ([], c, rest)
    else (takeFieldName (c = '[') rest).map fun found => (c :: found.1, found.2)

/-- Instructions up to the brace that closes the field, so many inner ones being open. -/
def takeInstructions : Nat → List Char → Except MalformedTemplate (List Char × List Char)
  | _, [] => .error .unclosedSpec
  | inner, c :: rest =>
    if c = '{' then (takeInstructions (inner + 1) rest).map fun found => (c :: found.1, found.2)
    else if c = '}' then
      match inner with
      | 0 => .ok ([], rest)
      | inner + 1 => (takeInstructions inner rest).map fun found => (c :: found.1, found.2)
    else (takeInstructions inner rest).map fun found => (c :: found.1, found.2)

def takeFieldEnd (name : List Char) (mark : Char) (cs : List Char) :
    Except MalformedTemplate (Field × List Char) :=
  if mark = '}' then
    .ok (⟨name, none, []⟩, cs)
  else if mark = ':' then
    (takeInstructions 0 cs).map fun found => (⟨name, none, found.1⟩, found.2)
  else
    match cs with
    | [] => .error .missingConversion
    | [_] => .error .unclosedSpec
    | conversion :: '}' :: rest => .ok (⟨name, some conversion, []⟩, rest)
    | conversion :: ':' :: rest =>
      (takeInstructions 0 rest).map fun found => (⟨name, some conversion, found.1⟩, found.2)
    | _ => .error .strayAfterConversion

def takeField (cs : List Char) : Except MalformedTemplate (Field × List Char) := do
  let (name, mark, rest) ← takeFieldName false cs
  takeFieldEnd name mark rest

def pieces (cs : List Char) : List Piece :=
  match cs with
  | [] => []
  | '{' :: '{' :: rest => .char '{' :: pieces rest
  | '}' :: '}' :: rest => .char '}' :: pieces rest
  | '}' :: _ => [.broken .loneClosingBrace]
  | ['{'] => [.broken .loneOpeningBrace]
  | '{' :: rest =>
    match takeField rest with
    | .error cause => [.broken cause]
    | .ok (field, after) =>
      .field field :: (if after.length < rest.length then pieces after else [])
  | c :: rest => .char c :: pieces rest
termination_by cs.length
decreasing_by all_goals simp only [List.length_cons] at *; omega

inductive Numbering
  | undecided
  | automatic (next : Nat)
  | numbered
deriving Repr, DecidableEq

def wholeName? (name : List Char) : Except MalformedTemplate (Option Nat) := do
  let (number, rest) ← takeCount name
  .ok (if rest.isEmpty then number else none)

def Numbering.place (numbering : Numbering) (name : List Char) :
    Except MalformedTemplate (Option Nat × Numbering) := do
  if name.isEmpty then
    match numbering with
    | undecided => .ok (some 0, automatic 1)
    | automatic next => .ok (some next, automatic (next + 1))
    | numbered => .error .automaticAfterNumbered
  else
    match ← wholeName? name, numbering with
    | some _, automatic _ => .error .numberedAfterAutomatic
    | some index, _ => .ok (some index, numbered)
    | none, numbering => .ok (none, numbering)

inductive Step
  | property (name : String)
  | item (name : String) (number : Option Nat)
  | broken (cause : MalformedTemplate)
deriving Repr, DecidableEq

def itemStep (name : List Char) : Step :=
  match wholeName? name with
  | .error cause => .broken cause
  | .ok number => if name.isEmpty then .broken .emptyAccessor else .item (String.ofList name) number

def steps (cs : List Char) : List Step :=
  match cs with
  | [] => []
  | '.' :: rest =>
    let inName (c : Char) : Bool := c ≠ '.' && c ≠ '['
    let name := rest.takeWhile inName
    if name.isEmpty then [.broken .emptyAccessor]
    else .property (String.ofList name) :: steps (rest.dropWhile inName)
  | '[' :: rest =>
    match _h : rest.dropWhile (· ≠ ']') with
    | [] => [.broken .unclosedItem]
    | _ :: after => itemStep (rest.takeWhile (· ≠ ']')) :: steps after
  | _ => [.broken .strayAfterItem]
termination_by cs.length
decreasing_by
  · exact Nat.lt_succ_of_le (length_dropWhile_le _ rest)
  · have hle := length_dropWhile_le (· ≠ ']') rest
    rw [_h] at hle
    simp only [List.length_cons] at hle ⊢
    omega

def Step.take (subject : Subject) : Step → Except TemplateFault Subject
  | property name => subject.getAttribute name
  | item name number => subject.getItem name number
  | broken cause => .error (.malformed cause)

def subjectOf (arguments : List Json) (numbering : Numbering) (name : List Char) :
    Except TemplateFault (Subject × Numbering) := do
  let inFirst (c : Char) : Bool := c ≠ '.' && c ≠ '['
  let first := name.takeWhile inFirst
  let (place, numbering) ← (numbering.place first).mapError .malformed
  let argument ←
    match place with
    | none => .error (.noSuchKey (Text.quote (String.ofList first)))
    | some index =>
      match arguments[index]? with
      | some json => .ok (Subject.value json)
      | none => .error (.noSuchArgument index)
  let subject ← (steps (name.dropWhile inFirst)).foldlM Step.take argument
  .ok (subject, numbering)

def convert (subject : Subject) : Option Char → Except TemplateFault Subject
  | none | some '\x00' => .ok subject
  | some 's' => .ok (.text subject.running)
  | some 'r' => .ok (.text subject.display)
  | some 'a' => .ok (.text (Text.asciiOnly subject.display))
  | some mark => .error (.malformed (.unknownConversion mark))

/-- A text filled in, and how fields are counted after it. -/
abbrev Filled := Except TemplateFault (List Char × Numbering)

def fillField (arguments : List Json) (fillInner : Numbering → List Char → Filled)
    (numbering : Numbering) (field : Field) : Filled := do
  let (subject, numbering) ← subjectOf arguments numbering field.name
  let subject ← convert subject field.conversion
  let (instructions, numbering) ←
    if field.instructions.contains '{' then fillInner numbering field.instructions
    else .ok (field.instructions, numbering)
  let text ← subject.format instructions
  .ok (text, numbering)

def fillPieces (arguments : List Json) (fillInner : Numbering → List Char → Filled) :
    Numbering → List Piece → Filled
  | numbering, [] => .ok ([], numbering)
  | numbering, .char c :: rest => do
    let (text, numbering) ← fillPieces arguments fillInner numbering rest
    .ok (c :: text, numbering)
  | numbering, .field field :: rest => do
    let (first, numbering) ← fillField arguments fillInner numbering field
    let (text, numbering) ← fillPieces arguments fillInner numbering rest
    .ok (first ++ text, numbering)
  | _, .broken cause :: _ => .error (.malformed cause)

def fillNested (arguments : List Json) : Nat → Numbering → List Char → Filled
  | 0, _, _ => .error (.malformed .nestedTooDeep)
  | depth + 1, numbering, cs =>
    fillPieces arguments (fillNested arguments depth) numbering (pieces cs)

/-- Instructions may hold fields, but those hold none in theirs. -/
def greatestDepth : Nat := 2

def braces (message : String) (arguments : List Json) : Except TemplateFault String :=
  if arguments.isEmpty then .ok message
  else
    (fillNested arguments greatestDepth .undecided message.toList).map fun filled =>
      String.ofList filled.1

end Template

end BuilderFields
