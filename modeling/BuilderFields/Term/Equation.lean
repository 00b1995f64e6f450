import BuilderFields.Term.Unify

/-!
# Systems of equations

The equations of a system are solved together: their left sides and their right sides make two sequences
that are unified. When that clashes, the first equation that cannot be added to those before it is the
one to report. Looking for it takes a search for every beginning of the system, and where one of them is
cut off there is nothing to report: it is not known whether that beginning clashes.
-/

namespace BuilderFields

inductive EquationReason
  | startReturnsField
  | finishTakesField
  | finishReturnsConsumer
  | stated (reason : String)
deriving Repr, DecidableEq

def EquationReason.text : EquationReason → String
  | .startReturnsField => "start() return type matches the builder field"
  | .finishTakesField => "finish() parameter type matches the builder field"
  | .finishReturnsConsumer => "finish() return type matches the annotated parameter"
  | .stated reason => reason

inductive Conflict
  | missing
  | found (place : Nat)
  | tooDeep
deriving Repr, DecidableEq

structure Equation where
  left : Term
  right : Term
  reason : EquationReason
deriving Repr, DecidableEq

namespace Equation

def text (equation : Equation) : String :=
  equation.left.describe ++ " = " ++ equation.right.describe

def leftSides (equations : List Equation) : Term :=
  .seq (equations.map left)

def rightSides (equations : List Equation) : Term :=
  .seq (equations.map right)

def searchDepth (equations : List Equation) : Nat :=
  Term.searchDepth (leftSides equations) (rightSides equations)

def solveWithin (depth : Nat) (equations : List Equation) : Except Unsolved Substitution :=
  Term.unifyWithin depth (leftSides equations) (rightSides equations)

def solve (equations : List Equation) : Except Unsolved Substitution :=
  (leftSides equations).unify (rightSides equations)

/-- The first of these places whose equation clashes with those before it. -/
def conflictAmong (depth : Nat) (equations : List Equation) : List Nat → Conflict
  | [] => .missing
  | place :: later =>
    match solveWithin depth (equations.take (place + 1)) with
    | .ok _ => conflictAmong depth equations later
    | .error (.clash _) => .found place
    | .error .tooDeep => .tooDeep

def firstConflictWithin (depth : Nat) (equations : List Equation) : Conflict :=
  conflictAmong depth equations (List.range equations.length)

-- The beginnings of the system are searched as deep as the whole of it.
def firstConflict (equations : List Equation) : Conflict :=
  firstConflictWithin (searchDepth equations) equations

theorem solve_eq_solveWithin (equations : List Equation) :
    solve equations = solveWithin (searchDepth equations) equations := rfl

end Equation

end BuilderFields
