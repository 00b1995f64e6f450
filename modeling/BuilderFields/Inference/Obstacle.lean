import BuilderFields.Expectation
import BuilderFields.Registry
import BuilderFields.Term.Unify

/-!
# Why a builder cannot be generated

An obstacle ends the inference for a field or the reading of a style, where a type that is merely not
determined does not. Each constructor is one cause, and `message` is the only place that words it.
-/

namespace BuilderFields

inductive StyleProblem
  | missingStart
  | missingFinish
  | finishArity (count : Nat)
  /-- A modifier of a style that takes no parameters. -/
  | modifierTakesNothing (modifier : String)
  /-- The modifier at hand takes no parameters. -/
  | takesNothing
  | unknownStyle
deriving Repr, DecidableEq

def StyleProblem.text : StyleProblem → String
  | .missingStart => "could not find start() operation"
  | .missingFinish => "could not find finish() operation"
  | .finishArity count => "finish() must take exactly one parameter, takes " ++ toString count
  | .modifierTakesNothing modifier =>
    "modifier " ++ modifier ++ "() must take the builder field as its first parameter"
  | .takesNothing => "a modifier must take the builder field as its first parameter"
  | .unknownStyle => "unknown style"

structure FieldContext where
  parameter : String
  style : String
  modifier : Option String
deriving Repr, DecidableEq

def FieldContext.text (context : FieldContext) : String :=
  let modifier :=
    match context.modifier with
    | none => ""
    | some name => if name.isEmpty then "" else ", modifier " ++ name
  "parameter " ++ context.parameter ++ " (style " ++ context.style ++ modifier ++ ")"

inductive Obstacle
  | unreadable (error : SyntaxFault)
  | unsupported (type : TypeExpr) (context : Option FieldContext)
  | foreignValue (value : Scalar)
  | malformedStyle (style : String) (problem : StyleProblem)
  | cyclic (cycle : Cycle)
  | unrenderable (fault : RenderingFault)
  /-- The search for a solution was cut off. -/
  | searchTooDeep
deriving Repr

namespace Obstacle

def ofEncoding : EncodingFault → Obstacle
  | .unsupported type => .unsupported type none
  | .foreign value => .foreignValue value

def within (context : FieldContext) : Obstacle → Obstacle
  | .unsupported type _ => .unsupported type (some context)
  | obstacle => obstacle

def message : Obstacle → String
  | .unreadable error => error.message
  | .unsupported type context =>
    let place :=
      match context with
      | none => ""
      | some context => " in " ++ context.text
    "type is not supported for use in a builder" ++ place ++ ": " ++ type.describe
  | .foreignValue value => "Not a type description: " ++ value.display
  | .malformedStyle style problem => "malformed style " ++ style ++ ": " ++ problem.text
  | .cyclic cycle =>
    "cyclic substitution: " ++ cycle.term.describe ++ " did not resolve after " ++
      toString cycle.passes ++ " passes"
  | .unrenderable (.unresolved unknown) =>
    "cannot render unresolved type variable " ++ unknown.describe
  | .unrenderable (.foreignAtom atom) =>
    atom.display ++ " was not allocated by this registry"
  | .unrenderable .headless => "Cannot render term: " ++ (Term.seq []).display
  | .searchTooDeep => "the equations nest too deep to be solved"

end Obstacle

end BuilderFields
