import BuilderFields.Term.Equation

/-!
# Types that are not determined

Inference may end without a type and without an obstacle. The reason is kept, and where the equations
clash, so are the clash and the equation at which it arose.
-/

namespace BuilderFields

inductive IndeterminateReason
  | noFieldType (style : String)
  | openFieldType (style : String) (term : Term)
  | returnTypeMismatch (modifier fieldType : String)
  | openParameter (parameter modifier fieldType : String)
deriving Repr, DecidableEq

def IndeterminateReason.text : IndeterminateReason → String
  | .noFieldType style => "could not infer the builder field type for style " ++ style
  | .openFieldType style term =>
    "builder field type for style " ++ style ++ " is not fully determined: " ++ term.describe
  | .returnTypeMismatch modifier fieldType =>
    "return type of " ++ modifier ++ "() does not match the builder field type " ++ fieldType
  | .openParameter parameter modifier fieldType =>
    "type of parameter " ++ parameter ++ " of " ++ modifier ++
      "() is not determined by the builder field type " ++ fieldType

structure Indeterminate where
  reason : IndeterminateReason
  clash : Option Clash
  equation : Option Equation
deriving Repr, DecidableEq

/-- The reason, then a line each for the equation and for the clash. -/
def Indeterminate.text (it : Indeterminate) : String :=
  let equation :=
    match it.equation with
    | none => ""
    | some equation => "\n  Equation: " ++ equation.reason.text
  let clash :=
    match it.clash with
    | none => ""
    | some clash => "\n  Detail:   " ++ clash.text
  it.reason.text ++ equation ++ clash

abbrev Determined (α : Type) := Except Indeterminate α

end BuilderFields
