import BuilderFields.Text.Quoted

/-!
# Plain values

A plain value is text, a whole number, a truth value or nothing. It may stand, wrongly, where a type
expression is expected, and is then shown in the message.
-/

namespace BuilderFields

inductive Scalar
  | text (value : String)
  | whole (value : Int)
  | truth (value : Bool)
  | nothing
deriving Repr, DecidableEq

def Scalar.display : Scalar → String
  | .text value => Text.quote value
  | .whole value => toString value
  | .truth value => Text.showTruth value
  | .nothing => "None"

end BuilderFields
