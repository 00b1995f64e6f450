import BuilderFields.TypeExpr.Reader

/-!
# Reading signatures

A signature declares its type parameters in front, between angle brackets, and reads them as type
variables from there on. A return type, the operation's name and its parameters follow.
-/

namespace BuilderFields

namespace Reading

def identifierList (tokens : List Token) : Except Fault (Taken tokens (List String)) :=
  match tokens with
  | [] => .error ⟨.identifier, none⟩
  | [name] =>
    if name.isIdentifier then .ok (.first [name.text]) else .error ⟨.identifier, some name⟩
  | name :: comma :: rest =>
    if name.isIdentifier then
      if comma.text = "," then do
        let others ← identifierList rest
        .ok (((others.map fun names => name.text :: names).behind comma).behind name)
      else
        .ok (.first [name.text])
    else
      .error ⟨.identifier, some name⟩

def closeParameters (tokens : List Token) : Except Fault (Taken tokens Unit) :=
  match tokens with
  | [] => .error ⟨.token ">", none⟩
  | closing :: rest =>
    if closing.text = BoundKind.upper.text then .error ⟨.unboundedParameter, some closing⟩
    else expect ">" (closing :: rest)

def typeParameters (tokens : List Token) : Except Fault (Taken tokens (List String)) :=
  match tokens with
  | [] => .ok (.nothing [])
  | opening :: rest =>
    if opening.text = "<" then do
      let names ← identifierList rest
      let closing ← closeParameters names.rest
      .ok ((names.andThen (closing.map fun _ => names.value)).behind opening)
    else
      .ok (.nothing [])

def parameter (scope : List String) (tokens : List Token) :
    Except Fault (Taken tokens Parameter) := do
  let type ← typeExpr scope tokens
  let name ← identifier type.rest
  .ok (type.andThen (name.map fun name => ⟨name, type.value⟩))

mutual

def parameterList (scope : List String) (tokens : List Token) :
    Except Fault (Taken tokens (List Parameter)) := do
  let first ← parameter scope tokens
  let others ← moreParameters scope first.rest
  .ok (first.andThen (others.map fun parameters => first.value :: parameters))
termination_by (tokens.length, 1)
decreasing_by
  have := first.length_le
  simp only [Prod.lex_def]
  omega

def moreParameters (scope : List String) (tokens : List Token) :
    Except Fault (Taken tokens (List Parameter)) :=
  match tokens with
  | [] => .ok (.nothing [])
  | comma :: rest =>
    if comma.text = "," then do
      let parameters ← parameterList scope rest
      .ok (parameters.behind comma)
    else
      .ok (.nothing [])
termination_by (tokens.length, 0)

end

def parametersAfterParen (scope : List String) (tokens : List Token) :
    Except Fault (Taken tokens (List Parameter)) :=
  match tokens with
  | [] => .error ⟨.identifier, none⟩
  | closing :: rest =>
    if closing.text = ")" then
      .ok (.first [])
    else do
      let parameters ← parameterList scope (closing :: rest)
      let paren ← expect ")" parameters.rest
      .ok (parameters.andThen (paren.map fun _ => parameters.value))

def signature (scope : List String) (tokens : List Token) :
    Except Fault (Taken tokens Signature) := do
  let declared ← typeParameters tokens
  let inner := scope ++ declared.value
  let returnType ← typeExpr inner declared.rest
  let name ← identifier returnType.rest
  let paren ← expect "(" name.rest
  let parameters ← parametersAfterParen inner paren.rest
  let read := parameters.map fun parameters =>
    (⟨name.value, declared.value, parameters, returnType.value⟩ : Signature)
  .ok (declared.andThen (returnType.andThen (name.andThen (paren.andThen read))))

end Reading

def Signature.parse (text : String) (scope : List String) : Except SyntaxFault Signature :=
  Reading.whole (Reading.signature scope) text

end BuilderFields
