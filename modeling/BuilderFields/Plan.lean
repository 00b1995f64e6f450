import BuilderFields.Inference.Report
import BuilderFields.Style
import BuilderFields.Text.LetterCase

/-!
# Plans

A plan says everything that a code emitter needs for one annotated method: the type of every builder
field, and for a styled field the wrapper methods with their parameter types. What could not be inferred
stays in the plan with its reason. A field without a style has a setter instead of modifiers.
-/

namespace BuilderFields

structure FieldInfo where
  parameter : Parameter
  style : Option FieldStyle

def FieldInfo.name (info : FieldInfo) : String :=
  info.parameter.name

structure ModifierPlan where
  name : String
  methodName : String
  parameterNames : List String
  parameterTypes : Determined (List String)

def ModifierPlan.resolved (plan : ModifierPlan) : Bool :=
  plan.parameterTypes.isOk

structure FieldPlan where
  info : FieldInfo
  fieldType : Determined String
  modifiers : List ModifierPlan

namespace FieldPlan

def name (plan : FieldPlan) : String :=
  plan.info.name

def resolved (plan : FieldPlan) : Bool :=
  plan.fieldType.isOk

def setterName (plan : FieldPlan) : Option String :=
  match plan.info.style with
  | some _ => none
  | none => some ("set" ++ Text.capitalizeFirst plan.name)

def indeterminate (plan : FieldPlan) : List String :=
  (if plan.resolved then [] else [plan.name]) ++
    (plan.modifiers.filter fun modifier => !modifier.resolved).map ModifierPlan.methodName

end FieldPlan

structure MethodPlan where
  name : String
  fields : List FieldPlan

def MethodPlan.indeterminate (plan : MethodPlan) : List String :=
  plan.fields.flatMap FieldPlan.indeterminate

def planModule : String := "callbuilder.fields"

def sendWarning {ε : Type} (module message : String) : Logged ε Unit :=
  .send ⟨.named .warning, module, message⟩

def reportIndeterminateField (info : FieldInfo) (style : FieldStyle) (it : Indeterminate) :
    Logged Obstacle Unit :=
  sendWarning planModule
    ("fields.indeterminate field=" ++ info.name ++ " style=" ++ style.name ++
      " reason=" ++ it.text)

def reportSkippedModifier (info : FieldInfo) (modifier : Signature)
    (types : Determined (List String)) : Logged Obstacle Unit :=
  match types with
  | .ok _ => pure ()
  | .error it =>
    sendWarning planModule
      ("fields.modifier.skipped field=" ++ info.name ++ " modifier=" ++ modifier.name ++
        " reason=" ++ it.text)

def planModifiers (info : FieldInfo) (style : FieldStyle) (inference : FieldInference) :
    List Signature → Logged Obstacle (List ModifierPlan)
  | [] => pure []
  | modifier :: rest => do
    let (logged, g) := inference.modifierTypesLogged modifier
    let types ← logged.mapError (.within ⟨info.name, style.name, some modifier.name⟩)
    reportSkippedModifier info modifier types
    let plan : ModifierPlan := {
      name := modifier.name
      methodName := modifier.name ++ Text.capitalizeFirst info.name
      parameterNames := (modifier.parameters.drop 1).map Parameter.name
      parameterTypes := types }
    let others ← planModifiers info style { inference with registry := g } rest
    pure (plan :: others)

def planStyledField (info : FieldInfo) (style : FieldStyle) : Logged Obstacle FieldPlan := do
  let verdict ←
    (inferFieldLogged (some style.start) (some style.finish) info.parameter.type
      style.name).mapError (.within ⟨info.name, style.name, none⟩)
  match verdict with
  | .error it =>
    reportIndeterminateField info style it
    pure ⟨info, .error it, []⟩
  | .ok inference =>
    let modifiers ← planModifiers info style inference style.modifiers
    let type ← .ofExcept inference.fieldType
    pure ⟨info, .ok type, modifiers⟩

def planField (info : FieldInfo) : Logged Obstacle FieldPlan :=
  match info.style with
  | some style => planStyledField info style
  | none => do
    let type ← .ofExcept (info.parameter.type.canonicalText.mapError .foreignValue)
    pure ⟨info, .ok type, []⟩

def planFields (styles : Entries String FieldStyle) :
    List Parameter → Logged Obstacle (List FieldPlan)
  | [] => pure []
  | parameter :: rest => do
    let plan ← planField ⟨parameter, styles.get? parameter.name⟩
    let others ← planFields styles rest
    pure (plan :: others)

def reportMethod (plan : MethodPlan) : Logged Obstacle Unit :=
  sendDebug planModule
    ("fields.method.planned method=" ++ plan.name ++ " fields=" ++ toString plan.fields.length ++
      " indeterminate=" ++ Text.quoteList plan.indeterminate)

def planMethod (name : String) (parameters : List Parameter) (styles : Entries String FieldStyle) :
    Logged Obstacle MethodPlan := do
  let fields ← planFields styles parameters
  let plan : MethodPlan := ⟨name, fields⟩
  reportMethod plan
  pure plan

end BuilderFields
