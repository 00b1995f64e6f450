import BuilderFields.Expectation
import BuilderFields.Taken
import BuilderFields.TypeExpr

/-!
# Reading type expressions

One function per rule of the grammar, each on the tokens that are left:

* a type is a wildcard, a bounded wildcard, or a dotted name with arguments and array brackets;
* primitives and the type variables in scope take no arguments;
* arguments are types between angle brackets, separated by commas.

What a rule leaves over is never longer than what it was given, so the rules recurse on the number of
tokens, and within one number on the order in which they call each other.
-/

namespace BuilderFields

namespace Reading

def identifier (tokens : List Token) : Except Fault (Taken tokens String) :=
  match tokens with
  | [] => .error ⟨.identifier, none⟩
  | token :: _ =>
    if token.isIdentifier then .ok (.first token.text) else .error ⟨.identifier, some token⟩

def expect (wanted : String) (tokens : List Token) : Except Fault (Taken tokens Unit) :=
  match tokens with
  | [] => .error ⟨.token wanted, none⟩
  | token :: _ =>
    if token.text = wanted then .ok (.first ()) else .error ⟨.token wanted, some token⟩

def dottedAfter (name : String) (tokens : List Token) : Except Fault (Taken tokens String) :=
  match tokens with
  | [] => .ok (.nothing name)
  | [dot] => if dot.text = "." then .error ⟨.identifier, none⟩ else .ok (.nothing name)
  | dot :: word :: rest =>
    if dot.text = "." then
      if word.isIdentifier then do
        let full ← dottedAfter (name ++ "." ++ word.text) rest
        .ok ((full.behind word).behind dot)
      else
        .error ⟨.identifier, some word⟩
    else
      .ok (.nothing name)

def dottedName (tokens : List Token) : Except Fault (Taken tokens String) := do
  let first ← identifier tokens
  let name ← dottedAfter first.value first.rest
  .ok (first.andThen name)

def dimensionsAfter (type : TypeExpr) (tokens : List Token) :
    Except Fault (Taken tokens TypeExpr) :=
  match tokens with
  | [] => .ok (.nothing type)
  | [opening] => if opening.text = "[" then .error ⟨.token "]", none⟩ else .ok (.nothing type)
  | opening :: closing :: rest =>
    if opening.text = "[" then
      if closing.text = "]" then do
        let array ← dimensionsAfter (.array type) rest
        .ok ((array.behind closing).behind opening)
      else
        .error ⟨.token "]", some closing⟩
    else
      .ok (.nothing type)

def boundKind? (token : Token) : Option BoundKind :=
  if token.text = BoundKind.upper.text then some .upper
  else if token.text = BoundKind.lower.text then some .lower
  else none

mutual

/-- One type, with the names in `scope` read as type variables. -/
def typeExpr (scope : List String) (tokens : List Token) : Except Fault (Taken tokens TypeExpr) :=
  match tokens with
  | [] => .error ⟨.identifier, none⟩
  | [mark] => if mark.text = "?" then .ok (.first (.wildcard .upper)) else named scope [mark]
  | mark :: next :: rest =>
    if mark.text = "?" then
      match boundKind? next with
      | some kind => do
        let bound ← typeExpr scope rest
        .ok (((bound.map (.bounded kind)).behind next).behind mark)
      | none => .ok (.first (.wildcard .upper))
    else
      named scope (mark :: next :: rest)
termination_by (tokens.length, 2)

def named (scope : List String) (tokens : List Token) : Except Fault (Taken tokens TypeExpr) := do
  let name ← dottedName tokens
  if name.value ∈ TypeExpr.primitiveNames then
    let type ← dimensionsAfter (.primitive name.value) name.rest
    .ok (name.andThen type)
  else if name.value ∈ scope then
    let type ← dimensionsAfter (.typeVar name.value) name.rest
    .ok (name.andThen type)
  else
    let arguments ← typeArguments scope name.rest
    let type ← dimensionsAfter (.declared name.value arguments.value) arguments.rest
    .ok (name.andThen (arguments.andThen type))
termination_by (tokens.length, 1)
decreasing_by
  have := name.length_le
  simp only [Prod.lex_def]
  omega

def typeArguments (scope : List String) (tokens : List Token) :
    Except Fault (Taken tokens (List TypeExpr)) :=
  match tokens with
  | [] => .ok (.nothing [])
  | opening :: rest =>
    if opening.text = "<" then do
      let types ← typeList scope rest
      let closing ← expect ">" types.rest
      .ok ((types.andThen (closing.map fun _ => types.value)).behind opening)
    else
      .ok (.nothing [])
termination_by (tokens.length, 0)

def typeList (scope : List String) (tokens : List Token) :
    Except Fault (Taken tokens (List TypeExpr)) := do
  let first ← typeExpr scope tokens
  let others ← moreTypes scope first.rest
  .ok (first.andThen (others.map fun types => first.value :: types))
termination_by (tokens.length, 3)
decreasing_by
  · exact Prod.Lex.right _ (by decide)
  · have := first.length_le
    simp only [Prod.lex_def]
    omega

def moreTypes (scope : List String) (tokens : List Token) :
    Except Fault (Taken tokens (List TypeExpr)) :=
  match tokens with
  | [] => .ok (.nothing [])
  | comma :: rest =>
    if comma.text = "," then do
      let types ← typeList scope rest
      .ok (types.behind comma)
    else
      .ok (.nothing [])
termination_by (tokens.length, 0)

end

def whole {α : Type} (rule : (tokens : List Token) → Except Fault (Taken tokens α))
    (text : String) : Except SyntaxFault α :=
  match rule (Token.ofText text) with
  | .error fault => .error ⟨text, fault⟩
  | .ok taken =>
    match taken.rest with
    | [] => .ok taken.value
    | token :: _ => .error ⟨text, ⟨.endOfText, some token⟩⟩

end Reading

def TypeExpr.parse (text : String) (scope : List String) : Except SyntaxFault TypeExpr :=
  Reading.whole (Reading.typeExpr scope) text

end BuilderFields
