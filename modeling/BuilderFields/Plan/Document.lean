import BuilderFields.Json.Writer
import BuilderFields.Plan

/-!
# Plans as documents

A plan is written as a JSON object. A type that was not inferred is null, with the reason beside it, and
a setter is listed only for fields that have one.
-/

namespace BuilderFields

def Json.texts (values : List String) : Json :=
  .array (values.map .text)

def ModifierPlan.toJson (plan : ModifierPlan) : Json :=
  let types :=
    match plan.parameterTypes with
    | .ok types => [("parameter_types", Json.texts types)]
    | .error it => [("parameter_types", .null), ("reason", .text it.text)]
  .object ([("name", .text plan.methodName), ("calls", .text plan.name),
    ("parameter_names", Json.texts plan.parameterNames)] ++ types)

def FieldPlan.toJson (plan : FieldPlan) : Json :=
  let style :=
    match plan.info.style with
    | some style => .text style.name
    | none => .null
  let type :=
    match plan.fieldType with
    | .ok type => [("type", .text type)]
    | .error it => [("type", .null), ("reason", .text it.text)]
  let setter :=
    match plan.setterName with
    | some setter => [("setter", .text setter)]
    | none => []
  .object ([("name", .text plan.name), ("style", style)] ++ type ++ setter ++
    [("modifiers", .array (plan.modifiers.map ModifierPlan.toJson))])

def MethodPlan.toJson (plan : MethodPlan) : Json :=
  .object [("method", .text plan.name), ("fields", .array (plan.fields.map FieldPlan.toJson))]

def defaultIndent : Option Int := some 2

def writePlans (indent : Option Int) (plans : List MethodPlan) : String :=
  Json.write indent (.array (plans.map MethodPlan.toJson))

end BuilderFields
