import BuilderFields.Entries

/-!
# JSON values

A JSON value keeps the order of its members and the spelling of its decimal numbers. The values of the
number constants (not a number, the infinities) count as decimals.
-/

namespace BuilderFields

inductive Json
  | null
  | truth (value : Bool)
  | whole (value : Int)
  /-- A number with a fraction or an exponent, or a number constant, as spelled. -/
  | decimal (spelling : String)
  | text (value : String)
  | array (items : List Json)
  | object (members : List (String × Json))
deriving Repr, Inhabited

namespace Json

def kindName : Json → String
  | .null => "NoneType"
  | .truth _ => "bool"
  | .whole _ => "int"
  | .decimal _ => "float"
  | .text _ => "str"
  | .array _ => "list"
  | .object _ => "dict"

end Json

end BuilderFields
