import BuilderFields.Entries
import BuilderFields.Term

/-!
# Substitutions

A substitution binds unknowns to terms, in the order in which they were first bound. Its values may
mention unknowns that it binds itself: `apply` replaces each bound unknown once, and `resolve` repeats
that until nothing changes. A substitution with n bindings that reaches a fixed point at all does so
within n passes, and one more pass notices it.
-/

namespace BuilderFields

structure Substitution where
  bindings : Entries Unknown Term
  nodup : bindings.keys.Nodup := by simp [Entries.keys]
deriving Repr

structure Cycle where
  term : Term
  passes : Nat
deriving Repr, DecidableEq

namespace Substitution

def empty : Substitution where
  bindings := []

instance : EmptyCollection Substitution := ⟨empty⟩

instance : Inhabited Substitution := ⟨empty⟩

def single (unknown : Unknown) (term : Term) : Substitution where
  bindings := [(unknown, term)]

def ofList (bindings : List (Unknown × Term)) : Substitution where
  bindings := Entries.ofList bindings
  nodup := Entries.nodup_keys_ofList bindings

def size (s : Substitution) : Nat :=
  s.bindings.length

def get? (s : Substitution) (unknown : Unknown) : Option Term :=
  s.bindings.get? unknown

/-- The bindings of both; where both bind an unknown, `later` wins in the earlier place. -/
def union (s later : Substitution) : Substitution where
  bindings := s.bindings.putAll later.bindings
  nodup := Entries.nodup_keys_putAll s.nodup later.bindings

mutual

/-- Replaces every bound unknown by its value, once. -/
def apply (s : Substitution) : Term → Term
  | .atom a => .atom a
  | .unknown u => (s.get? u).getD (.unknown u)
  | .seq items => .seq (applyAll s items)

def applyAll (s : Substitution) : List Term → List Term
  | [] => []
  | first :: rest => apply s first :: applyAll s rest

end

/-- The first term that a pass leaves as it is, if it comes within so many passes. -/
def settle (s : Substitution) : Nat → Term → Option Term
  | 0, _ => none
  | passes + 1, term =>
    let next := s.apply term
    if next = term then some next else settle s passes next

def passLimit (s : Substitution) : Nat :=
  s.size + 1

def resolve (s : Substitution) (term : Term) : Except Cycle Term :=
  match s.settle s.passLimit term with
  | some settled => .ok settled
  | none => .error ⟨term, s.passLimit⟩

def describe (s : Substitution) : String :=
  let bindings := s.bindings.map fun binding => binding.1.describe ++ ": " ++ binding.2.describe
  "Substitution(\x7b" ++ Text.commaJoin bindings ++ "\x7d)"

theorem applyAll_eq_map (s : Substitution) (terms : List Term) :
    s.applyAll terms = terms.map s.apply := by
  induction terms with
  | nil => rfl
  | cons first rest ih => simp [applyAll, ih]

@[simp]
theorem union_empty (s : Substitution) : s.union empty = s := rfl

theorem apply_of_settle {s : Substitution} {passes : Nat} {term settled : Term}
    (h : s.settle passes term = some settled) : s.apply settled = settled := by
  induction passes generalizing term with
  | zero => simp [settle] at h
  | succ passes ih =>
    simp only [settle] at h
    split at h
    · rename_i heq
      cases h
      rw [heq, heq]
    · exact ih h

end Substitution

end BuilderFields
