import BuilderFields.Inference.Modifier
import BuilderFields.Log.Logged

/-!
# What inference reports to the log

Every inference is reported on the debug level: the equations of a field before they are solved, then how
that ended, and for a modifier its types or the clash. A type that cannot be encoded is reported before
the obstacle it makes. The outcomes are those of `inferField` and `FieldInference.modifierTypes`.
-/

namespace BuilderFields

def registryModule : String := "callbuilder.unification.registry"

def inferenceModule : String := "callbuilder.unification.inference"

def sendDebug {ε : Type} (module message : String) : Logged ε Unit :=
  .send ⟨.named .debug, module, message⟩

def reportEncoding {α : Type} (outcome : Except Obstacle α) : Logged Obstacle α :=
  match outcome with
  | .error (.unsupported type none) => do
    sendDebug registryModule ("registry.encode.unsupported description=" ++ type.display)
    .fail (.unsupported type none)
  | outcome => .ofExcept outcome

def reportEquations (style : String) (equations : List Equation) : Logged Obstacle Unit :=
  sendDebug inferenceModule
    ("inference.field.equations style=" ++ style ++ " equations=" ++
      "; ".intercalate (equations.map Equation.text))

def reportField (style : String) (verdict : Determined FieldInference) : Logged Obstacle Unit :=
  match verdict with
  | .ok inference => do
    let type ← .ofExcept inference.fieldType
    sendDebug inferenceModule ("inference.field.solved style=" ++ style ++ " type=" ++ type)
  | .error ⟨_, some clash, _⟩ =>
    sendDebug inferenceModule ("inference.field.failed style=" ++ style ++ " detail=" ++ clash.text)
  | .error ⟨.openFieldType _ term, none, _⟩ =>
    sendDebug inferenceModule
      ("inference.field.unresolved style=" ++ style ++ " term=" ++ term.describe)
  | .error _ => pure ()

def inferFieldLogged (start finish : Option Signature) (consumer : TypeExpr) (style : String) :
    Logged Obstacle (Determined FieldInference) := do
  let pair ← .ofExcept (StylePair.check start finish style)
  let system ← reportEncoding ((FieldSystem.ofPair pair consumer).mapError .ofEncoding)
  reportEquations style system.equations
  let verdict ← .ofExcept (system.solve style)
  reportField style verdict
  pure verdict

def reportModifier (modifier : String) (types : Determined (List String)) :
    Logged Obstacle Unit :=
  match types with
  | .ok types =>
    sendDebug inferenceModule
      ("inference.modifier.solved modifier=" ++ modifier ++ " parameters=" ++ Text.quoteList types)
  | .error ⟨_, some clash, _⟩ =>
    sendDebug inferenceModule
      ("inference.modifier.failed modifier=" ++ modifier ++ " detail=" ++ clash.text)
  | .error _ => pure ()

def FieldInference.modifierTypesLogged (inference : FieldInference) (modifier : Signature) :
    Logged Obstacle (Determined (List String)) × Registry :=
  let (outcome, g) := inference.modifierTypes modifier
  let logged := do
    let types ← reportEncoding outcome
    reportModifier modifier.name types
    pure types
  (logged, g)

@[simp]
theorem outcome_sendDebug {ε : Type} (module message : String) :
    (sendDebug module message : Logged ε Unit).outcome = .ok () := rfl

@[simp]
theorem outcome_reportEncoding {α : Type} (outcome : Except Obstacle α) :
    (reportEncoding outcome).outcome = outcome := by
  unfold reportEncoding
  split <;> simp [Except.bind]

@[simp]
theorem outcome_reportModifier (modifier : String) (types : Determined (List String)) :
    (reportModifier modifier types).outcome = .ok () := by
  unfold reportModifier
  split <;> simp

/-- Reporting a modifier changes nothing about it. -/
theorem outcome_modifierTypesLogged (inference : FieldInference) (modifier : Signature) :
    (inference.modifierTypesLogged modifier).1.outcome = (inference.modifierTypes modifier).1 := by
  simp only [FieldInference.modifierTypesLogged, Logged.outcome_bind, outcome_reportEncoding,
    outcome_reportModifier, Logged.outcome_pure]
  rcases (inference.modifierTypes modifier).1 with obstacle | types <;> rfl

end BuilderFields
