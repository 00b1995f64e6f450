import BuilderFields.Entries
import BuilderFields.Text.Blank
import BuilderFields.Text.Lines

/-!
# Environment files

An environment file holds one assignment a line. Values may be bare, which ends at a comment and is
trimmed, or quoted, which may span lines and knows escapes. What can be read neither as an assignment nor
as a comment is passed over to the end of its line, and its line is noted. When all is read, references to
variables are replaced by their values, those of the file before those of the surrounding environment.
-/

namespace BuilderFields.EnvFile

def isInlineBlank (c : Char) : Bool :=
  Text.isBlank c && c ≠ '\n' && c ≠ '\r'

def isLineEnd (c : Char) : Bool :=
  c = '\n' || c = '\r'

def skipInline (cs : List Char) : List Char :=
  cs.dropWhile isInlineBlank

def dropLineEnd : List Char → List Char
  | '\r' :: '\n' :: rest => rest
  | '\n' :: rest => rest
  | '\r' :: rest => rest
  | cs => cs

def skipExport (cs : List Char) : List Char :=
  let word := "export".toList
  if word.isPrefixOf cs then
    let rest := cs.drop word.length
    match rest with
    | c :: _ => if isInlineBlank c then skipInline rest else cs
    | [] => cs
  else
    cs

/-- A name, bare or between single quotes; none if nothing there can be one. -/
def takeName (cs : List Char) : Option (List Char × List Char) :=
  match cs with
  | '\'' :: rest =>
    let name := rest.takeWhile (· ≠ '\'')
    match rest.dropWhile (· ≠ '\'') with
    | [] => none
    | _ :: after => if name.isEmpty then none else some (name, after)
  | cs =>
    let inName (c : Char) : Bool := c ≠ '=' && c ≠ '#' && !Text.isBlank c
    let name := cs.takeWhile inName
    if name.isEmpty then none else some (name, cs.dropWhile inName)

/-- The characters up to a closing quote, and what follows it. A backslash and the character behind it
are a pair, so a quote there closes nothing. -/
def upToQuote (mark : Char) : List Char → Option (List Char × List Char)
  | [] => none
  | '\\' :: c :: rest => (upToQuote mark rest).map fun found => ('\\' :: c :: found.1, found.2)
  | c :: rest =>
    if c = mark then some ([], rest)
    else (upToQuote mark rest).map fun found => (c :: found.1, found.2)

def singleEscape? : Char → Option Char
  | '\\' => some '\\'
  | '\'' => some '\''
  | _ => none

def doubleEscape? : Char → Option Char
  | '\\' => some '\\'
  | '\'' => some '\''
  | '"' => some '"'
  | 'a' => some '\x07'
  | 'b' => some '\x08'
  | 'f' => some '\x0c'
  | 'n' => some '\n'
  | 'r' => some '\r'
  | 't' => some '\t'
  | 'v' => some '\x0b'
  | _ => none

def unescape (escape? : Char → Option Char) : List Char → List Char
  | [] => []
  | '\\' :: c :: rest =>
    match escape? c with
    | some char => char :: unescape escape? rest
    | none => '\\' :: unescape escape? (c :: rest)
  | c :: rest => c :: unescape escape? rest

/-- The part of a bare value before a comment, which blanks separate from it. -/
def beforeComment : List Char → List Char
  | [] => []
  | c :: rest =>
    if Text.isBlank c && ((c :: rest).dropWhile Text.isBlank).head? = some '#' then []
    else c :: beforeComment rest

/-- The value after an equals sign; none if a quote is not closed. The blanks before a bare value
separate a comment from it, should it be empty. -/
def takeValue (cs : List Char) : Option (List Char × List Char) :=
  match skipInline cs with
  | '\'' :: rest =>
    (upToQuote '\'' rest).map fun found => (unescape singleEscape? found.1, found.2)
  | '"' :: rest =>
    (upToQuote '"' rest).map fun found => (unescape doubleEscape? found.1, found.2)
  | _ =>
    let line := cs.takeWhile fun c => !isLineEnd c
    some (Text.trimBlanks (beforeComment line), cs.dropWhile fun c => !isLineEnd c)

def skipComment (cs : List Char) : List Char :=
  match skipInline cs with
  | '#' :: rest => rest.dropWhile fun c => !isLineEnd c
  | _ => cs

def takeLineEnd (cs : List Char) : Option (List Char) :=
  match skipInline cs with
  | [] => some []
  | c :: rest => if isLineEnd c then some (dropLineEnd (c :: rest)) else none

structure Binding where
  name : List Char
  value : Option (List Char)
deriving Repr, DecidableEq

inductive Statement
  | binding (binding : Binding)
  /-- Text that is no statement; the line is the one that the statement before it ended on. -/
  | unreadable (line : Nat)
deriving Repr, DecidableEq

/-- A statement that starts at a character, and what follows it; the second part is where reading
stopped if it is no statement. -/
def takeStatement (cs : List Char) : Except (List Char) (Option Binding × List Char) :=
  let finish (binding : Option Binding) (rest : List Char) :=
    match takeLineEnd (skipComment rest) with
    | some after => .ok (binding, after)
    | none => .error (skipComment rest)
  let start := skipExport cs
  if start.head? = some '#' then
    finish none start
  else
    match takeName start with
    | none => .error start
    | some (name, rest) =>
      match skipInline rest with
      | '=' :: rest =>
        match takeValue rest with
        | none => .error rest
        | some (value, rest) => finish (some ⟨name, some value⟩) rest
      | rest => finish (some ⟨name, none⟩) rest

def skipLine (cs : List Char) : List Char :=
  match cs.dropWhile fun c => !isLineEnd c with
  | [] => []
  | _ :: after => after

def lineEndCount (cs : List Char) : Nat :=
  cs.count '\n'

def statements (line : Nat) (cs : List Char) : List Statement :=
  match cs.dropWhile Text.isBlank with
  | [] => []
  | start =>
    let (found, rest) : List Statement × List Char :=
      match takeStatement start with
      | .ok (binding, rest) => (binding.toList.map .binding, rest)
      | .error rest => ([.unreadable line], skipLine rest)
    let nextLine := line + (lineEndCount cs - lineEndCount rest)
    found ++ (if rest.length < cs.length then statements nextLine rest else [])
termination_by cs.length
decreasing_by assumption

def takeReference (cs : List Char) : Option (List Char × Option (List Char) × List Char) :=
  match cs with
  | '$' :: '{' :: rest =>
    let name := rest.takeWhile fun c => c ≠ '}' && c ≠ ':'
    match rest.dropWhile fun c => c ≠ '}' && c ≠ ':' with
    | '}' :: after => some (name, none, after)
    | ':' :: '-' :: rest =>
      match rest.dropWhile (· ≠ '}') with
      | _ :: after => some (name, some (rest.takeWhile (· ≠ '}')), after)
      | [] => none
    | _ => none
  | _ => none

/-- Replaces references by values, an unknown one by its default or by nothing. -/
def expand (value? : String → Option String) (cs : List Char) : List Char :=
  match cs with
  | [] => []
  | c :: rest =>
    match takeReference (c :: rest) with
    | some (name, default, after) =>
      let value := ((value? (String.ofList name)).map String.toList).getD (default.getD [])
      value ++ (if after.length < (c :: rest).length then expand value? after else [])
    | none => c :: expand value? rest
termination_by cs.length
decreasing_by
  · assumption
  · exact Nat.lt_succ_self rest.length

def resolve (environment : Entries String String) (bindings : List Binding) :
    Entries String (Option String) :=
  bindings.foldl (fun known binding =>
    let lookUp (name : String) : Option String :=
      match known.get? name with
      | some value => some (value.getD "")
      | none => environment.get? name
    known.put (String.ofList binding.name)
      (binding.value.map fun value => String.ofList (expand lookUp value))) []

def byteOrderMark : Char := '\ufeff'

def ofText (text : String) : List Statement :=
  let cs := Text.unifyLineEnds text.toList
  statements 1 (if cs.head? = some byteOrderMark then cs.drop 1 else cs)

def parse (environment : Entries String String) (text : String) : Entries String (Option String) :=
  resolve environment ((ofText text).filterMap fun
    | .binding binding => some binding
    | .unreadable _ => none)

def unreadableLines (text : String) : List Nat :=
  (ofText text).filterMap fun
    | .binding _ => none
    | .unreadable line => some line

end BuilderFields.EnvFile
