import BuilderFields.Inference.Field

/-!
# The parameter types of a modifier

A modifier takes the field as its first parameter and returns the updated field. Matching its return type
with the field's type binds its own type parameters, and the types of its other parameters follow. The
registry is shared by all modifiers of a field and only grows, whether a modifier fits or not.
-/

namespace BuilderFields

namespace FieldInference

def parameterTypes (inference : FieldInference) (modifier : String) (overrides : Overrides)
    (solution : Substitution) (parameters : List Parameter) (g : Registry) :
    Except Obstacle (Determined (List String)) × Registry :=
  match parameters with
  | [] => (.ok (.ok []), g)
  | parameter :: rest =>
    let (encoded, g) := g.encode overrides parameter.type
    match encoded with
    | .error fault => (.error (.ofEncoding fault), g)
    | .ok term =>
      match solution.resolve term with
      | .error cycle => (.error (.cyclic cycle), g)
      | .ok resolved =>
        if resolved.isGround then
          match g.render resolved with
          | .error fault => (.error (.unrenderable fault), g)
          | .ok text =>
            let (others, g) := inference.parameterTypes modifier overrides solution rest g
            (others.map fun types => types.map fun types => text :: types, g)
        else
          match g.render inference.term with
          | .error fault => (.error (.unrenderable fault), g)
          | .ok fieldType =>
            (.ok (.error ⟨.openParameter parameter.name modifier fieldType, none, none⟩), g)

/-- The types of a modifier's parameters after the field, and the registry that encoded them. -/
def modifierTypes (inference : FieldInference) (modifier : Signature) :
    Except Obstacle (Determined (List String)) × Registry :=
  match modifier.parameters with
  | [] => (.error (.malformedStyle modifier.name .takesNothing), inference.registry)
  | _ :: others =>
    let (overrides, g) := inference.registry.typeParameters modifier.typeParameters []
    let (returned, g) := g.encode overrides modifier.returnType
    match returned with
    | .error fault => (.error (.ofEncoding fault), g)
    | .ok returned =>
      match inference.term.unify returned with
      | .error .tooDeep => (.error .searchTooDeep, g)
      | .error (.clash clash) =>
        match g.render inference.term with
        | .error fault => (.error (.unrenderable fault), g)
        | .ok fieldType =>
          (.ok (.error ⟨.returnTypeMismatch modifier.name fieldType, some clash, none⟩), g)
      | .ok solution => inference.parameterTypes modifier.name overrides solution others g

end FieldInference

end BuilderFields
