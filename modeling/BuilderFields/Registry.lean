import BuilderFields.Entries
import BuilderFields.Term
import BuilderFields.TypeExpr

/-!
# The registry of atoms

A registry interns the texts of types as atoms, one atom for each text, and hands out fresh unknowns.
The atom of a text has its place in the arena as handle, so the text of an atom is found again by its
handle. Encoding a type stores atoms even when it fails midway: the registry only grows.
-/

namespace BuilderFields

structure Registry where
  arena : Nat
  texts : List String
  issued : Nat
deriving Repr, DecidableEq

/-- The type parameters that stand for unknowns; every other type variable is a constant. -/
abbrev Overrides := Entries String Unknown

inductive EncodingFault
  /-- Wildcards, intersections and plain values have no term. -/
  | unsupported (type : TypeExpr)
  /-- A plain value inside an array, which has no text to intern. -/
  | foreign (value : Scalar)
deriving Repr

inductive RenderingFault
  | unresolved (unknown : Unknown)
  | foreignAtom (atom : Atom)
  | headless
deriving Repr, DecidableEq

namespace Registry

def fresh (arena : Nat) : Registry where
  arena := arena
  texts := []
  issued := 0

def size (g : Registry) : Nat :=
  g.texts.length

def atomAt (g : Registry) (place : Nat) (text : String) : Atom where
  arena := g.arena
  handle := place
  label := text

def intern (g : Registry) (text : String) : Atom × Registry :=
  match g.texts.idxOf? text with
  | some place => (g.atomAt place text, g)
  | none => (g.atomAt g.texts.length text, { g with texts := g.texts ++ [text] })

def freshUnknown (g : Registry) (hint : String) : Unknown × Registry :=
  ({ arena := g.arena, handle := g.issued, hint := hint }, { g with issued := g.issued + 1 })

/-- A fresh unknown for every declared name. A name declared twice keeps the second unknown. -/
def typeParameters (g : Registry) (names : List String) (known : Overrides) :
    Overrides × Registry :=
  match names with
  | [] => (known, g)
  | name :: rest =>
    let (unknown, g) := g.freshUnknown name
    g.typeParameters rest (known.put name unknown)

def textOf? (g : Registry) (atom : Atom) : Option String :=
  if atom.arena = g.arena ∧ 0 ≤ atom.handle then
    g.texts[atom.handle.toNat]?.filter (· = atom.label)
  else
    none

mutual

/-- The term of a type. A declared type becomes a sequence of its name and arguments, an overridden type
variable its unknown, and a primitive, an array or any other type variable the atom of its text. -/
def encode (overrides : Overrides) (type : TypeExpr) (g : Registry) :
    Except EncodingFault Term × Registry :=
  match type with
  | .typeVar name =>
    match overrides.get? name with
    | some unknown => (.ok (.unknown unknown), g)
    | none =>
      let (atom, g) := g.intern name
      (.ok (.atom atom), g)
  | .declared name arguments =>
    let (head, g) := g.intern name
    let (encoded, g) := encodeAll overrides arguments g
    (encoded.map fun terms => .seq (.atom head :: terms), g)
  | .primitive name =>
    let (atom, g) := g.intern name
    (.ok (.atom atom), g)
  | .array component =>
    match component.canonicalText with
    | .ok text =>
      let (atom, g) := g.intern (text ++ "[]")
      (.ok (.atom atom), g)
    | .error value => (.error (.foreign value), g)
  | .wildcard kind => (.error (.unsupported (.wildcard kind)), g)
  | .bounded kind bound => (.error (.unsupported (.bounded kind bound)), g)
  | .intersection bounds => (.error (.unsupported (.intersection bounds)), g)
  | .scalar value => (.error (.unsupported (.scalar value)), g)

def encodeAll (overrides : Overrides) (types : List TypeExpr) (g : Registry) :
    Except EncodingFault (List Term) × Registry :=
  match types with
  | [] => (.ok [], g)
  | first :: rest =>
    let (encoded, g) := encode overrides first g
    match encoded with
    | .error fault => (.error fault, g)
    | .ok term =>
      let (encoded, g) := encodeAll overrides rest g
      (encoded.map fun terms => term :: terms, g)

end

mutual

def render (g : Registry) : Term → Except RenderingFault String
  | .atom atom =>
    match g.textOf? atom with
    | some text => .ok text
    | none => .error (.foreignAtom atom)
  | .unknown unknown => .error (.unresolved unknown)
  | .seq [] => .error .headless
  | .seq [head] => render g head
  | .seq (head :: first :: rest) =>
    match render g head, renderAll g (first :: rest) with
    | .error fault, _ => .error fault
    | _, .error fault => .error fault
    | .ok name, .ok arguments => .ok (name ++ "<" ++ Text.commaJoin arguments ++ ">")

def renderAll (g : Registry) : List Term → Except RenderingFault (List String)
  | [] => .ok []
  | first :: rest =>
    match render g first, renderAll g rest with
    | .error fault, _ => .error fault
    | _, .error fault => .error fault
    | .ok text, .ok texts => .ok (text :: texts)

end

end Registry

end BuilderFields
