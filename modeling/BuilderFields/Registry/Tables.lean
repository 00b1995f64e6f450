import BuilderFields.Registry

/-!
# The tables of a registry

A registry has its atoms in the order of their allocation and looks them up both ways: the atom of a text when a type is
encoded, and the text of an atom when a term is rendered. Kept as they are looked up, these are three structures, and a
new atom is written to all of them. Encoding writes to them as it goes and may stop midway, so it is a computation whose
state outlives its failure.
-/

namespace BuilderFields

structure Tables where
  arena : Nat
  atoms : List Atom
  atomOf : Entries String Atom
  textOf : Entries Atom String
  issued : Nat
deriving Repr, DecidableEq

namespace Tables

def fresh (arena : Nat) : Tables where
  arena := arena
  atoms := []
  atomOf := []
  textOf := []
  issued := 0

def nextAtom (t : Tables) (text : String) : Atom where
  arena := t.arena
  handle := t.atoms.length
  label := text

def allocate (t : Tables) (text : String) : Tables :=
  { t with
    atoms := t.atoms ++ [t.nextAtom text]
    atomOf := t.atomOf.put text (t.nextAtom text)
    textOf := t.textOf.put (t.nextAtom text) text }

def intern (t : Tables) (text : String) : Atom × Tables :=
  match t.atomOf.get? text with
  | some atom => (atom, t)
  | none => (t.nextAtom text, t.allocate text)

def freshUnknown (t : Tables) (hint : String) : Unknown × Tables :=
  ({ arena := t.arena, handle := t.issued, hint := hint }, { t with issued := t.issued + 1 })

def typeParameters (t : Tables) (names : List String) (known : Overrides) : Overrides × Tables :=
  match names with
  | [] => (known, t)
  | name :: rest =>
    let (unknown, t) := t.freshUnknown name
    t.typeParameters rest (known.put name unknown)

abbrev Encoding (α : Type) := EStateM EncodingFault Tables α

def constant (text : String) : Encoding Term := fun t =>
  let (atom, t) := t.intern text
  .ok (.atom atom) t

mutual

def encode (overrides : Overrides) : TypeExpr → Encoding Term
  | .typeVar name =>
    match overrides.get? name with
    | some unknown => pure (.unknown unknown)
    | none => constant name
  | .declared name arguments => do
    let head ← constant name
    let terms ← encodeAll overrides arguments
    pure (.seq (head :: terms))
  | .primitive name => constant name
  | .array component =>
    match component.canonicalText with
    | .ok text => constant (text ++ "[]")
    | .error value => throw (.foreign value)
  | .wildcard kind => throw (.unsupported (.wildcard kind))
  | .bounded kind bound => throw (.unsupported (.bounded kind bound))
  | .intersection bounds => throw (.unsupported (.intersection bounds))
  | .scalar value => throw (.unsupported (.scalar value))

def encodeAll (overrides : Overrides) : List TypeExpr → Encoding (List Term)
  | [] => pure []
  | first :: rest => do
    let term ← encode overrides first
    let terms ← encodeAll overrides rest
    pure (term :: terms)

end

mutual

def render (t : Tables) : Term → Except RenderingFault String
  | .atom atom =>
    match t.textOf.get? atom with
    | some text => .ok text
    | none => .error (.foreignAtom atom)
  | .unknown unknown => .error (.unresolved unknown)
  | .seq [] => .error .headless
  | .seq (head :: arguments) => do
    let name ← render t head
    let texts ← renderAll t arguments
    pure (if arguments.isEmpty then name else name ++ "<" ++ Text.commaJoin texts ++ ">")

def renderAll (t : Tables) : List Term → Except RenderingFault (List String)
  | [] => .ok []
  | first :: rest => do
    let text ← render t first
    let texts ← renderAll t rest
    pure (text :: texts)

end

end Tables

end BuilderFields
