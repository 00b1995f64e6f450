import BuilderFields.Plan

/-!
# Plans as listings

A plan is listed for reading: the method, its fields with their types, and the wrapper methods below each
field. What was not inferred is marked, and its reason follows where reasons are asked for. A reason is one
entry of the listing even if it has several lines.
-/

namespace BuilderFields

def ModifierPlan.listing (reasons : Bool) (plan : ModifierPlan) : List String :=
  match plan.parameterTypes with
  | .error it =>
    ("    " ++ plan.methodName ++ ": <skipped>") ::
      (if reasons then ["      " ++ it.text] else [])
  | .ok types =>
    let parameters := types.zipWith (fun type name => type ++ " " ++ name) plan.parameterNames
    ["    " ++ plan.methodName ++ "(" ++ Text.commaJoin parameters ++ ")"]

def FieldPlan.listing (reasons : Bool) (plan : FieldPlan) : List String :=
  let style :=
    match plan.info.style with
    | some style => " (" ++ style.name ++ ")"
    | none => ""
  match plan.fieldType with
  | .error it =>
    ("  " ++ plan.name ++ style ++ ": <indeterminate>") ::
      (if reasons then ["    " ++ it.text] else [])
  | .ok type =>
    ("  " ++ plan.name ++ style ++ ": " ++ type) ::
      plan.modifiers.flatMap (ModifierPlan.listing reasons)

def MethodPlan.listing (reasons : Bool) (plan : MethodPlan) : List String :=
  (plan.name ++ ":") :: plan.fields.flatMap (FieldPlan.listing reasons)

end BuilderFields
