import BuilderFields.Inference.Indeterminate
import BuilderFields.Inference.Obstacle

/-!
# The type of a builder field

A styled field is created by `start` and handed over by `finish`. Its type is what makes three equations
hold at once: what `start` returns is the field, the field is what `finish` takes, and what `finish` returns
is the type that the annotated method expects. Both operations get fresh unknowns for their own type
parameters, while the type variables of the expected type are constants.

The equations of a style are a value of their own (`FieldSystem`), so that what is solved can be told apart
from how it is solved.
-/

namespace BuilderFields

structure StylePair where
  start : Signature
  finish : Signature
  accumulator : Parameter

def StylePair.check (start finish : Option Signature) (style : String) :
    Except Obstacle StylePair :=
  match start, finish with
  | none, _ => .error (.malformedStyle style .missingStart)
  | some _, none => .error (.malformedStyle style .missingFinish)
  | some start, some finish =>
    match finish.parameters with
    | [accumulator] => .ok ⟨start, finish, accumulator⟩
    | parameters => .error (.malformedStyle style (.finishArity parameters.length))

structure FieldSystem where
  registry : Registry
  field : Unknown
  equations : List Equation

structure FieldInference where
  registry : Registry
  term : Term

def FieldInference.fieldType (inference : FieldInference) : Except Obstacle String :=
  (inference.registry.render inference.term).mapError .unrenderable

namespace FieldSystem

def ofPair (pair : StylePair) (consumer : TypeExpr) : Except EncodingFault FieldSystem :=
  let g := Registry.fresh 0
  let (field, g) := g.freshUnknown "F"
  let (ofStart, g) := g.typeParameters pair.start.typeParameters []
  let (ofFinish, g) := g.typeParameters pair.finish.typeParameters []
  let (started, g) := g.encode ofStart pair.start.returnType
  match started with
  | .error fault => .error fault
  | .ok started =>
    let (taken, g) := g.encode ofFinish pair.accumulator.type
    match taken with
    | .error fault => .error fault
    | .ok taken =>
      let (finished, g) := g.encode ofFinish pair.finish.returnType
      match finished with
      | .error fault => .error fault
      | .ok finished =>
        let (expected, g) := g.encode [] consumer
        match expected with
        | .error fault => .error fault
        | .ok expected =>
          .ok {
            registry := g
            field := field
            equations := [
              ⟨started, .unknown field, .startReturnsField⟩,
              ⟨.unknown field, taken, .finishTakesField⟩,
              ⟨finished, expected, .finishReturnsConsumer⟩] }

def solve (system : FieldSystem) (style : String) :
    Except Obstacle (Determined FieldInference) :=
  match Equation.solve system.equations with
  | .error .tooDeep => .error .searchTooDeep
  | .error (.clash clash) =>
    match Equation.firstConflict system.equations with
    | .found place => .ok (.error ⟨.noFieldType style, some clash, system.equations[place]?⟩)
    | .missing => .ok (.error ⟨.noFieldType style, some clash, none⟩)
    | .tooDeep => .error .searchTooDeep
  | .ok solution =>
    match solution.resolve (.unknown system.field) with
    | .error cycle => .error (.cyclic cycle)
    | .ok term =>
      if term.isGround then
        .ok (.ok ⟨system.registry, term⟩)
      else
        .ok (.error ⟨.openFieldType style term, none, none⟩)

end FieldSystem

def inferField (start finish : Option Signature) (consumer : TypeExpr) (style : String) :
    Except Obstacle (Determined FieldInference) := do
  let pair ← StylePair.check start finish style
  let system ← (FieldSystem.ofPair pair consumer).mapError .ofEncoding
  system.solve style

def anonymousStyle : String := "<anonymous>"

end BuilderFields
