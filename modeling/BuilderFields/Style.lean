import BuilderFields.Inference.Field
import BuilderFields.Signature.Reader

/-!
# Accumulator styles

A style is a set of operations that together fill one builder field: `start` creates the accumulator,
`finish` turns it into the value that the annotated method expects, and every other operation is a
modifier, which takes the accumulator first and returns the updated one. A later `start` or `finish`
replaces an earlier one.
-/

namespace BuilderFields

structure FieldStyle where
  name : String
  start : Signature
  finish : Signature
  modifiers : List Signature

structure SortedOperations where
  start : Option Signature
  finish : Option Signature
  modifiers : List Signature

namespace SortedOperations

def empty : SortedOperations where
  start := none
  finish := none
  modifiers := []

def add (style : String) (sorted : SortedOperations) (operation : Signature) :
    Except Obstacle SortedOperations :=
  if operation.name = "start" then
    .ok { sorted with start := some operation }
  else if operation.name = "finish" then
    .ok { sorted with finish := some operation }
  else if operation.parameters.isEmpty then
    .error (.malformedStyle style (.modifierTakesNothing operation.name))
  else
    .ok { sorted with modifiers := sorted.modifiers ++ [operation] }

def toStyle (name : String) (sorted : SortedOperations) : Except Obstacle FieldStyle := do
  let pair ← StylePair.check sorted.start sorted.finish name
  .ok ⟨name, pair.start, pair.finish, sorted.modifiers⟩

end SortedOperations

namespace FieldStyle

def ofOperations (name : String) (operations : List Signature) : Except Obstacle FieldStyle := do
  let sorted ← operations.foldlM (SortedOperations.add name) .empty
  sorted.toStyle name

/-- Reads each operation just before it is sorted in, so the first fault of either kind is the one
reported. -/
def parse (name : String) (operations : List String) (scope : List String) :
    Except Obstacle FieldStyle := do
  let add (sorted : SortedOperations) (text : String) : Except Obstacle SortedOperations := do
    let operation ← (Signature.parse text scope).mapError .unreadable
    sorted.add name operation
  let sorted ← operations.foldlM add .empty
  sorted.toStyle name

def operations (style : FieldStyle) : List Signature :=
  style.start :: style.finish :: style.modifiers

end FieldStyle

end BuilderFields
