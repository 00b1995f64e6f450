import BuilderFields.Scalar

/-!
# Type expressions and signatures

A type expression describes a type of the host language as written: nothing is resolved. Its canonical
text is unique up to the kinds that share a spelling (a primitive, a type variable and a declared type
without arguments are all written by name). A plain value in the place of a type has no canonical text,
and `foreign?` finds the first one in reading order.
-/

namespace BuilderFields

inductive BoundKind
  | upper
  | lower
deriving Repr, DecidableEq

def BoundKind.text : BoundKind → String
  | .upper => "extends"
  | .lower => "super"

inductive TypeExpr
  | primitive (name : String)
  | array (component : TypeExpr)
  | declared (name : String) (arguments : List TypeExpr)
  | typeVar (name : String)
  /-- An unbounded wildcard; the kind is kept although it bounds nothing. -/
  | wildcard (kind : BoundKind)
  | bounded (kind : BoundKind) (bound : TypeExpr)
  | intersection (bounds : List TypeExpr)
  /-- A plain value where a type was expected. -/
  | scalar (value : Scalar)
deriving Repr, Inhabited

namespace TypeExpr

def primitiveNames : List String :=
  ["boolean", "byte", "char", "double", "float", "int", "long", "short"]

mutual

def text : TypeExpr → String
  | .primitive name => name
  | .array component => component.text ++ "[]"
  | .declared name [] => name
  | .declared name (first :: rest) =>
    name ++ "<" ++ Text.commaJoin (first.text :: textAll rest) ++ ">"
  | .typeVar name => name
  | .wildcard _ => "?"
  | .bounded kind bound => "? " ++ kind.text ++ " " ++ bound.text
  | .intersection bounds => " & ".intercalate (textAll bounds)
  | .scalar value => value.display

def textAll : List TypeExpr → List String
  | [] => []
  | first :: rest => first.text :: textAll rest

end

mutual

def foreign? : TypeExpr → Option Scalar
  | .primitive _ => none
  | .array component => component.foreign?
  | .declared _ arguments => foreignAmong? arguments
  | .typeVar _ => none
  | .wildcard _ => none
  | .bounded _ bound => bound.foreign?
  | .intersection bounds => foreignAmong? bounds
  | .scalar value => some value

def foreignAmong? : List TypeExpr → Option Scalar
  | [] => none
  | first :: rest => first.foreign?.or (foreignAmong? rest)

end

def Genuine (type : TypeExpr) : Prop :=
  type.foreign? = none

def canonicalText (type : TypeExpr) : Except Scalar String :=
  match type.foreign? with
  | some value => .error value
  | none => .ok type.text

mutual

/-- The expression as its constructors, which tells apart the kinds that share a spelling. -/
def display : TypeExpr → String
  | .primitive name => "PrimitiveType(name=" ++ Text.quote name ++ ")"
  | .array component => "ArrayType(component=" ++ component.display ++ ")"
  | .declared name arguments =>
    "DeclaredType(name=" ++ Text.quote name ++ ", arguments=" ++
      Text.showTuple (displayAll arguments) ++ ")"
  | .typeVar name => "TypeVariableRef(name=" ++ Text.quote name ++ ")"
  | .wildcard kind => "WildcardType(bound=None, kind=" ++ Text.quote kind.text ++ ")"
  | .bounded kind bound =>
    "WildcardType(bound=" ++ bound.display ++ ", kind=" ++ Text.quote kind.text ++ ")"
  | .intersection bounds =>
    "IntersectionType(bounds=" ++ Text.showTuple (displayAll bounds) ++ ")"
  | .scalar value => value.display

def displayAll : List TypeExpr → List String
  | [] => []
  | first :: rest => first.display :: displayAll rest

end

def describe (type : TypeExpr) : String :=
  match type.canonicalText with
  | .ok text => text
  | .error _ => type.display

theorem textAll_eq_map (types : List TypeExpr) : textAll types = types.map text := by
  induction types with
  | nil => rfl
  | cons first rest ih => simp [textAll, ih]

theorem displayAll_eq_map (types : List TypeExpr) : displayAll types = types.map display := by
  induction types with
  | nil => rfl
  | cons first rest ih => simp [displayAll, ih]

theorem foreignAmong?_eq_findSome? (types : List TypeExpr) :
    foreignAmong? types = types.findSome? foreign? := by
  induction types with
  | nil => rfl
  | cons first rest ih =>
    rw [foreignAmong?, List.findSome?_cons, ih]
    cases first.foreign? <;> rfl

theorem canonicalText_eq_ok_iff {type : TypeExpr} {written : String} :
    type.canonicalText = .ok written ↔ type.Genuine ∧ type.text = written := by
  unfold canonicalText Genuine
  split <;> simp_all

end TypeExpr

structure Parameter where
  name : String
  type : TypeExpr
deriving Repr

structure Signature where
  name : String
  typeParameters : List String
  parameters : List Parameter
  returnType : TypeExpr
deriving Repr

namespace Signature

def types (signature : Signature) : List TypeExpr :=
  signature.parameters.map Parameter.type ++ [signature.returnType]

def text (signature : Signature) : String :=
  let quantifier :=
    if signature.typeParameters.isEmpty then ""
    else "<" ++ Text.commaJoin signature.typeParameters ++ "> "
  let parameters := signature.parameters.map fun p => p.type.text ++ " " ++ p.name
  quantifier ++ signature.returnType.text ++ " " ++ signature.name ++
    "(" ++ Text.commaJoin parameters ++ ")"

def canonicalText (signature : Signature) : Except Scalar String :=
  match TypeExpr.foreignAmong? signature.types with
  | some value => .error value
  | none => .ok signature.text

end Signature

end BuilderFields
