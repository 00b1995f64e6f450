import BuilderFields.TypeExpr
import Mathlib.Data.List.Basic

/-!
# Type variables

A type variable is replaced where it is a type of its own or an argument. Inside of an array it is a part of the
array's text and stays, so the variables of a type come in two kinds.
-/

namespace BuilderFields

/-- Induction over a type and the types it is made of. -/
@[elab_as_elim]
theorem TypeExpr.inductionOn {motive : TypeExpr → Prop} (type : TypeExpr)
    (primitive : ∀ name, motive (.primitive name))
    (array : ∀ component, motive component → motive (.array component))
    (declared : ∀ name arguments, (∀ argument ∈ arguments, motive argument) →
      motive (.declared name arguments))
    (typeVar : ∀ name, motive (.typeVar name)) (wildcard : ∀ kind, motive (.wildcard kind))
    (bounded : ∀ kind bound, motive bound → motive (.bounded kind bound))
    (intersection : ∀ bounds, (∀ bound ∈ bounds, motive bound) → motive (.intersection bounds))
    (scalar : ∀ value, motive (.scalar value)) : motive type := by
  refine TypeExpr.rec (motive_1 := motive) (motive_2 := fun types => ∀ type ∈ types, motive type)
    primitive array declared typeVar wildcard bounded intersection scalar ?_ ?_ type
  · intro type htype
    exact absurd htype List.not_mem_nil
  · intro first rest hfirst hrest
    exact List.forall_mem_cons.mpr ⟨hfirst, hrest⟩

namespace TypeExpr

mutual

/-- The type variables outside of arrays, in reading order. -/
def typeVars : TypeExpr → List String
  | .primitive _ => []
  | .array _ => []
  | .declared _ arguments => typeVarsAll arguments
  | .typeVar name => [name]
  | .wildcard _ => []
  | .bounded _ bound => bound.typeVars
  | .intersection bounds => typeVarsAll bounds
  | .scalar _ => []

def typeVarsAll : List TypeExpr → List String
  | [] => []
  | first :: rest => first.typeVars ++ typeVarsAll rest

end

@[simp]
theorem typeVars_typeVar (name : String) : (typeVar name).typeVars = [name] := by
  simp [typeVars]

@[simp]
theorem typeVars_primitive (name : String) : (primitive name).typeVars = [] := by
  simp [typeVars]

@[simp]
theorem typeVars_array (component : TypeExpr) : (array component).typeVars = [] := by
  simp [typeVars]

theorem typeVarsAll_eq_flatMap (types : List TypeExpr) :
    typeVarsAll types = types.flatMap typeVars := by
  induction types with
  | nil => rfl
  | cons first rest ih => simp [typeVarsAll, ih]

@[simp]
theorem typeVars_declared (name : String) (arguments : List TypeExpr) :
    (declared name arguments).typeVars = arguments.flatMap typeVars := by
  rw [typeVars, typeVarsAll_eq_flatMap]

mutual

def arrayTypeVars : TypeExpr → List String
  | .primitive _ => []
  | .array component => component.typeVars ++ component.arrayTypeVars
  | .declared _ arguments => arrayTypeVarsAll arguments
  | .typeVar _ => []
  | .wildcard _ => []
  | .bounded _ bound => bound.arrayTypeVars
  | .intersection bounds => arrayTypeVarsAll bounds
  | .scalar _ => []

def arrayTypeVarsAll : List TypeExpr → List String
  | [] => []
  | first :: rest => first.arrayTypeVars ++ arrayTypeVarsAll rest

end

theorem arrayTypeVarsAll_eq_flatMap (types : List TypeExpr) :
    arrayTypeVarsAll types = types.flatMap arrayTypeVars := by
  induction types with
  | nil => rfl
  | cons first rest ih => simp [arrayTypeVarsAll, ih]

mutual

def rename (σ : String → String) : TypeExpr → TypeExpr
  | .primitive name => .primitive name
  | .array component => .array (component.rename σ)
  | .declared name arguments => .declared name (renameAll σ arguments)
  | .typeVar name => .typeVar (σ name)
  | .wildcard kind => .wildcard kind
  | .bounded kind bound => .bounded kind (bound.rename σ)
  | .intersection bounds => .intersection (renameAll σ bounds)
  | .scalar value => .scalar value

def renameAll (σ : String → String) : List TypeExpr → List TypeExpr
  | [] => []
  | first :: rest => first.rename σ :: renameAll σ rest

end

theorem renameAll_eq_map (σ : String → String) (types : List TypeExpr) :
    renameAll σ types = types.map (rename σ) := by
  induction types with
  | nil => rfl
  | cons first rest ih => simp [renameAll, ih]

/-- A renaming that leaves all names of a type alone leaves the type alone. -/
theorem rename_eq_self {σ : String → String} {type : TypeExpr}
    (houtside : ∀ name ∈ type.typeVars, σ name = name)
    (hinside : ∀ name ∈ type.arrayTypeVars, σ name = name) : type.rename σ = type := by
  have hall : ∀ types : List TypeExpr, (∀ type ∈ types, type.rename σ = type) →
      renameAll σ types = types := by
    intro types htypes
    rw [renameAll_eq_map]
    exact (List.map_congr_left htypes).trans (List.map_id' types)
  induction type using TypeExpr.inductionOn with
  | primitive name => rw [rename]
  | array component ih =>
      rw [arrayTypeVars, List.forall_mem_append] at hinside
      rw [rename, ih hinside.1 hinside.2]
  | declared name arguments ih =>
      rw [typeVars, typeVarsAll_eq_flatMap, List.forall_mem_flatMap] at houtside
      rw [arrayTypeVars, arrayTypeVarsAll_eq_flatMap, List.forall_mem_flatMap] at hinside
      rw [rename, hall arguments fun argument h => ih argument h (houtside argument h)
        (hinside argument h)]
  | typeVar name => rw [rename, houtside name (by simp)]
  | wildcard kind => rw [rename]
  | bounded kind bound ih =>
      rw [typeVars] at houtside
      rw [arrayTypeVars] at hinside
      rw [rename, ih houtside hinside]
  | intersection bounds ih =>
      rw [typeVars, typeVarsAll_eq_flatMap, List.forall_mem_flatMap] at houtside
      rw [arrayTypeVars, arrayTypeVarsAll_eq_flatMap, List.forall_mem_flatMap] at hinside
      rw [rename, hall bounds fun bound h => ih bound h (houtside bound h) (hinside bound h)]
  | scalar value => rw [rename]

mutual

/-- Every type variable outside of arrays by the type that stands for it, if there is one. -/
def replace (σ : String → Option TypeExpr) : TypeExpr → TypeExpr
  | .primitive name => .primitive name
  | .array component => .array component
  | .declared name arguments => .declared name (replaceAll σ arguments)
  | .typeVar name => (σ name).getD (.typeVar name)
  | .wildcard kind => .wildcard kind
  | .bounded kind bound => .bounded kind (bound.replace σ)
  | .intersection bounds => .intersection (replaceAll σ bounds)
  | .scalar value => .scalar value

def replaceAll (σ : String → Option TypeExpr) : List TypeExpr → List TypeExpr
  | [] => []
  | first :: rest => first.replace σ :: replaceAll σ rest

end

@[simp]
theorem replace_primitive (σ : String → Option TypeExpr) (name : String) :
    (primitive name).replace σ = .primitive name := by
  rw [replace]

@[simp]
theorem replace_array (σ : String → Option TypeExpr) (component : TypeExpr) :
    (array component).replace σ = .array component := by
  rw [replace]

@[simp]
theorem replace_typeVar (σ : String → Option TypeExpr) (name : String) :
    (typeVar name).replace σ = (σ name).getD (.typeVar name) := by
  rw [replace]

theorem replaceAll_eq_map (σ : String → Option TypeExpr) (types : List TypeExpr) :
    replaceAll σ types = types.map (replace σ) := by
  induction types with
  | nil => rfl
  | cons first rest ih => simp [replaceAll, ih]

@[simp]
theorem replace_declared (σ : String → Option TypeExpr) (name : String)
    (arguments : List TypeExpr) :
    (declared name arguments).replace σ = .declared name (arguments.map (replace σ)) := by
  rw [replace, replaceAll_eq_map]

/-- The types that have a term: no wildcards or intersections, and no plain values. -/
inductive Encodable : TypeExpr → Prop
  | primitive (name) : Encodable (.primitive name)
  | array {component} (h : component.Genuine) : Encodable (.array component)
  | declared (name) {arguments} (h : ∀ argument ∈ arguments, Encodable argument) :
    Encodable (.declared name arguments)
  | typeVar (name) : Encodable (.typeVar name)

@[simp]
theorem encodable_primitive (name : String) : (TypeExpr.primitive name).Encodable :=
  .primitive name

@[simp]
theorem encodable_typeVar (name : String) : (TypeExpr.typeVar name).Encodable :=
  .typeVar name

/-- An array has a term whenever it has a canonical text. -/
@[simp]
theorem encodable_array_iff {component : TypeExpr} :
    (TypeExpr.array component).Encodable ↔ component.Genuine :=
  ⟨fun | .array h => h, .array⟩

@[simp]
theorem encodable_declared_iff {name : String} {arguments : List TypeExpr} :
    (TypeExpr.declared name arguments).Encodable ↔ ∀ argument ∈ arguments, argument.Encodable :=
  ⟨fun | .declared _ h => h, .declared name⟩

theorem genuine_declared (name : String) {arguments : List TypeExpr}
    (h : ∀ argument ∈ arguments, argument.Genuine) : (declared name arguments).Genuine := by
  rw [Genuine, foreign?, foreignAmong?_eq_findSome?, List.findSome?_eq_none_iff]
  exact h

theorem Encodable.genuine {type : TypeExpr} (h : type.Encodable) : type.Genuine := by
  induction h with
  | primitive name => rfl
  | array h => rwa [Genuine, foreign?]
  | declared name _ ih => exact genuine_declared name ih
  | typeVar name => rfl

theorem Encodable.canonicalText_eq {type : TypeExpr} (h : type.Encodable) :
    type.canonicalText = .ok type.text :=
  canonicalText_eq_ok_iff.mpr ⟨h.genuine, rfl⟩

/-- Types with terms may be put in the place of names. -/
theorem Encodable.replace {type : TypeExpr} (h : type.Encodable) {σ : String → Option TypeExpr}
    (hσ : ∀ name other, σ name = some other → other.Encodable) : (type.replace σ).Encodable := by
  induction h with
  | primitive name => simp
  | array h => simpa using h
  | declared name _ ih => simpa using ih
  | typeVar name =>
      rw [replace_typeVar]
      cases hname : σ name with
      | none => exact .typeVar name
      | some other => exact hσ name other hname

end TypeExpr

theorem Signature.returnType_mem_types (signature : Signature) :
    signature.returnType ∈ signature.types :=
  List.mem_append_right _ List.mem_cons_self

theorem Signature.type_mem_types {signature : Signature} {parameter : Parameter}
    (h : parameter ∈ signature.parameters) : parameter.type ∈ signature.types :=
  List.mem_append_left _ (List.mem_map_of_mem h)

end BuilderFields
