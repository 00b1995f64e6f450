import BuilderFields.Text.Quoted

/-!
# Terms

Types are compared as terms: an atom stands for one concrete type name, an unknown for a type to be
found, and a sequence for a head with its arguments or for a bundle of equations. Atoms and unknowns are
told apart by where they were allocated as well as by what they print, so two of them may print alike
and still differ.
-/

namespace BuilderFields

/-- A constant. The arena is the place of allocation, the handle its number there. -/
structure Atom where
  arena : Nat
  handle : Int
  label : String
deriving Repr, DecidableEq

structure Unknown where
  arena : Nat
  handle : Int
  hint : String
deriving Repr, DecidableEq

inductive Term
  | atom (atom : Atom)
  | unknown (unknown : Unknown)
  | seq (items : List Term)
deriving Repr, Inhabited

def Atom.describe (atom : Atom) : String :=
  if atom.label.isEmpty then "#" ++ toString atom.handle else atom.label

def Atom.display (atom : Atom) : String :=
  if atom.label.isEmpty then
    "Atom(#" ++ toString atom.handle ++ ")"
  else
    "Atom(#" ++ toString atom.handle ++ " " ++ Text.quote atom.label ++ ")"

def Unknown.describe (unknown : Unknown) : String :=
  "?" ++ unknown.hint ++ toString unknown.handle

namespace Term

mutual

def decEq : (left right : Term) → Decidable (left = right)
  | .atom a, .atom b =>
    if h : a = b then isTrue (by rw [h]) else isFalse (by simpa using h)
  | .unknown a, .unknown b =>
    if h : a = b then isTrue (by rw [h]) else isFalse (by simpa using h)
  | .seq a, .seq b =>
    match decEqAll a b with
    | isTrue h => isTrue (by rw [h])
    | isFalse h => isFalse (by simpa using h)
  | .atom _, .unknown _ => isFalse (by simp)
  | .atom _, .seq _ => isFalse (by simp)
  | .unknown _, .atom _ => isFalse (by simp)
  | .unknown _, .seq _ => isFalse (by simp)
  | .seq _, .atom _ => isFalse (by simp)
  | .seq _, .unknown _ => isFalse (by simp)

def decEqAll : (left right : List Term) → Decidable (left = right)
  | [], [] => isTrue rfl
  | [], _ :: _ => isFalse (by simp)
  | _ :: _, [] => isFalse (by simp)
  | a :: as, b :: bs =>
    match decEq a b, decEqAll as bs with
    | isTrue h, isTrue h' => isTrue (by rw [h, h'])
    | isFalse h, _ => isFalse (by simp [h])
    | _, isFalse h => isFalse (by simp [h])

end

instance : DecidableEq Term := decEq

mutual

def describe : Term → String
  | .atom a => a.describe
  | .unknown u => u.describe
  | .seq items => "[" ++ Text.commaJoin (describeAll items) ++ "]"

def describeAll : List Term → List String
  | [] => []
  | first :: rest => first.describe :: describeAll rest

end

def display : Term → String
  | .atom a => a.display
  | .unknown u => "Variable(" ++ u.describe ++ ")"
  | .seq items => "Sequence(" ++ (Term.seq items).describe ++ ")"

mutual

/-- The unknowns of a term from left to right, each as often as it occurs. -/
def occurrences : Term → List Unknown
  | .atom _ => []
  | .unknown u => [u]
  | .seq items => occurrencesAll items

def occurrencesAll : List Term → List Unknown
  | [] => []
  | first :: rest => first.occurrences ++ occurrencesAll rest

end

def unknowns (term : Term) : List Unknown :=
  term.occurrences.eraseDups

def isGround (term : Term) : Bool :=
  term.occurrences.isEmpty

mutual

def size : Term → Nat
  | .atom _ => 1
  | .unknown _ => 1
  | .seq items => sizeAll items + 1

def sizeAll : List Term → Nat
  | [] => 0
  | first :: rest => first.size + sizeAll rest

end

theorem occurrencesAll_eq_flatMap (terms : List Term) :
    occurrencesAll terms = terms.flatMap occurrences := by
  induction terms with
  | nil => rfl
  | cons first rest ih => simp [occurrencesAll, ih]

theorem describeAll_eq_map (terms : List Term) : describeAll terms = terms.map describe := by
  induction terms with
  | nil => rfl
  | cons first rest ih => simp [describeAll, ih]

theorem size_pos (term : Term) : 0 < term.size := by
  cases term <;> simp [size]

end Term

end BuilderFields
