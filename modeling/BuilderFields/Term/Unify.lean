import BuilderFields.Term.Substitution

/-!
# Unification

Two terms are unified position by position: what one position binds is applied once to the positions
after it, on both sides. There is no occurs check. An unknown may be bound to a term that contains it,
which `Substitution.resolve` reports later as a cycle, and on some pairs without a finite common instance
the search would go on for ever. It is therefore given a depth, and running out of depth is an outcome of
its own, apart from a clash.
-/

namespace BuilderFields

inductive ClashReason
  | distinctAtoms
  | lengths (left right : Nat)
  | atomAndSequence
deriving Repr, DecidableEq

structure Clash where
  left : Term
  right : Term
  reason : ClashReason
deriving Repr, DecidableEq

namespace Clash

def reasonText (clash : Clash) : String :=
  match clash.reason with
  | .distinctAtoms => "distinct atoms"
  | .lengths left right =>
    "length " ++ toString left ++ " does not match length " ++ toString right
  | .atomAndSequence => "atom and sequence"

def text (clash : Clash) : String :=
  "cannot unify " ++ clash.left.describe ++ " with " ++ clash.right.describe ++
    ": " ++ clash.reasonText

end Clash

inductive Unsolved
  | clash (clash : Clash)
  /-- The search was cut off, so neither a solution nor a clash is known. -/
  | tooDeep
deriving Repr, DecidableEq

namespace Term

def unifyPairs (solve : Term → Term → Except Unsolved Substitution) (found : Substitution)
    (pairs : List (Term × Term)) : Except Unsolved Substitution :=
  match pairs with
  | [] => .ok found
  | (left, right) :: rest =>
    match solve left right with
    | .error unsolved => .error unsolved
    | .ok step =>
      unifyPairs solve (found.union step)
        (rest.map fun pair => (step.apply pair.1, step.apply pair.2))
termination_by pairs.length
decreasing_by simp

def unifyWithin : Nat → Term → Term → Except Unsolved Substitution
  | 0, _, _ => .error .tooDeep
  | depth + 1, left, right =>
    match left, right with
    | .unknown a, .unknown b =>
      if a = b then .ok .empty else .ok (.single a (.unknown b))
    | .unknown a, right => .ok (.single a right)
    | left, .unknown b => .ok (.single b left)
    | .atom a, .atom b =>
      if a = b then .ok .empty else .error (.clash ⟨.atom a, .atom b, .distinctAtoms⟩)
    | .seq as, .seq bs =>
      if as.length = bs.length then
        unifyPairs (unifyWithin depth) .empty (as.zip bs)
      else
        .error (.clash ⟨.seq as, .seq bs, .lengths as.length bs.length⟩)
    | left, right => .error (.clash ⟨left, right, .atomAndSequence⟩)

/-- Enough depth for every pair with a finite common instance, whose nesting is bounded by the sizes;
the constant leaves room for pairs without one. -/
def searchDepth (left right : Term) : Nat :=
  left.size + right.size + 1000

def unify (left right : Term) : Except Unsolved Substitution :=
  unifyWithin (searchDepth left right) left right

end Term

end BuilderFields
