import BuilderFields.Json.Reader
import BuilderFields.Plan
import BuilderFields.Style.Builtin

/-!
# Requests

A request is a JSON document that defines styles of its own and names the methods to plan. It is read in
document order, each node's shape before its contents, and the first defect ends the reading. A defect of
shape is reported with the path of the node.
-/

namespace BuilderFields

inductive Shape
  | object
  | array
  | text
deriving Repr, DecidableEq

def Shape.phrase : Shape → String
  | .object => "an object"
  | .array => "an array"
  | .text => "a string"

inductive RequestFault
  /-- The document as a whole is no object. -/
  | notAnObject
  | wrongShape (path : String) (expected : Shape) (found : String)
  | missing (path key : String)
  | unreadable (error : Json.SyntaxFault)
  | obstacle (cause : Obstacle)
deriving Repr

def RequestFault.message : RequestFault → String
  | .notAnObject => "Expected a JSON object with a 'methods' field"
  | .wrongShape path expected found =>
    path ++ ": expected " ++ expected.phrase ++ ", got " ++ found
  | .missing path key => path ++ ": missing '" ++ key ++ "'"
  | .unreadable error => error.message
  | .obstacle cause => cause.message

structure MethodRequest where
  name : String
  parameters : List Parameter
  styles : Entries String FieldStyle

structure Request where
  /-- The built-in styles and those of the document. -/
  styles : Entries String FieldStyle
  methods : List MethodRequest

def MethodRequest.plan (method : MethodRequest) : Logged Obstacle MethodPlan :=
  planMethod method.name method.parameters method.styles

namespace Request

def expectObject (path : String) : Json → Except RequestFault (Entries String Json)
  | .object members => .ok members
  | json => .error (.wrongShape path .object json.kindName)

def expectArray (path : String) : Json → Except RequestFault (List Json)
  | .array items => .ok items
  | json => .error (.wrongShape path .array json.kindName)

def expectText (path : String) : Json → Except RequestFault String
  | .text value => .ok value
  | json => .error (.wrongShape path .text json.kindName)

def indexed (path : String) (index : Nat) : String :=
  path ++ "[" ++ toString index ++ "]"

def expectTexts (path : String) (json : Json) : Except RequestFault (List String) := do
  let items ← expectArray path json
  items.zipIdx.mapM fun item => expectText (indexed path item.2) item.1

def textMember (path : String) (entry : Entries String Json) (key : String) :
    Except RequestFault String :=
  match entry.get? key with
  | none => .error (.missing path key)
  | some json => expectText (path ++ "." ++ key) json

def readStyle (styles : Entries String FieldStyle) (entry : String × Json) :
    Except RequestFault (Entries String FieldStyle) := do
  let operations ← expectTexts ("styles." ++ entry.1) entry.2
  let style ← (FieldStyle.parse entry.1 operations []).mapError .obstacle
  .ok (styles.put entry.1 style)

def readChoice (styles : Entries String FieldStyle) (path : String) (entry : Entries String Json) :
    Except RequestFault (Option FieldStyle) :=
  match entry.get? "style" with
  | none => .ok none
  | some .null => .ok none
  | some json => do
    let name ← expectText (path ++ ".style") json
    match styles.get? name with
    | none => .error (.obstacle (.malformedStyle name .unknownStyle))
    | some style => .ok (some style)

def readParameter (styles : Entries String FieldStyle) (scope : List String) (path : String)
    (json : Json) : Except RequestFault FieldInfo := do
  let entry ← expectObject path json
  let name ← textMember path entry "name"
  let text ← textMember path entry "type"
  let type ← (TypeExpr.parse text scope).mapError (.obstacle ∘ .unreadable)
  let style ← readChoice styles path entry
  .ok ⟨⟨name, type⟩, style⟩

/-- The styles chosen by name; of two parameters of one name the later choice counts. -/
def chosenStyles (infos : List FieldInfo) : Entries String FieldStyle :=
  Entries.ofList (infos.filterMap fun info => info.style.map fun style => (info.name, style))

def readMethod (styles : Entries String FieldStyle) (path : String) (json : Json) :
    Except RequestFault MethodRequest := do
  let entry ← expectObject path json
  let name ← textMember path entry "name"
  let scope ←
    expectTexts (path ++ ".type_variables") ((entry.get? "type_variables").getD (.array []))
  let parametersPath := path ++ ".parameters"
  let parameters ←
    expectArray parametersPath ((entry.get? "parameters").getD (.array []))
  let infos ← parameters.zipIdx.mapM fun item =>
    readParameter styles scope (indexed parametersPath item.2) item.1
  .ok ⟨name, infos.map FieldInfo.parameter, chosenStyles infos⟩

def ofJson (json : Json) : Except RequestFault Request :=
  match json with
  | .object document => do
    let document : Entries String Json := document
    let custom ← expectObject "styles" ((document.get? "styles").getD (.object []))
    let styles ← custom.foldlM readStyle FieldStyle.builtinTable
    let entries ← expectArray "methods" ((document.get? "methods").getD (.array []))
    let methods ← entries.zipIdx.mapM fun item =>
      readMethod styles (indexed "methods" item.2) item.1
    .ok ⟨styles, methods⟩
  | _ => .error .notAnObject

def parse (text : String) : Except RequestFault Request := do
  let json ← (Json.parse text).mapError .unreadable
  ofJson json

end Request

end BuilderFields
