import BuilderFields.Proofs.Term.Conflict

/-!
# What has a solution is solved

Overwriting loses bindings but never invents one: whatever the search binds holds in every common instance of the
two sides. So on a pair that has a common instance the search ends with a substitution, and a clash means that
there is none. The same holds of systems of equations, whose two sides are unified as sequences, and a system with
a solution has no first conflict since all its beginnings have that solution as well.
-/

namespace BuilderFields

open Substitution

namespace Assignment

def Solves (θ : Assignment) (equations : List Equation) : Prop :=
  ∀ equation ∈ equations, θ.Unifies equation.left equation.right

/-- To solve a system is to make the sequence of its left sides equal to that of its right sides. -/
theorem solves_iff_unifies_sides {θ : Assignment} {equations : List Equation} :
    θ.Solves equations ↔
      θ.Unifies (Equation.leftSides equations) (Equation.rightSides equations) := by
  simp only [Solves, Unifies, Equation.leftSides, Equation.rightSides, value_seq, List.map_map,
    Term.seq.injEq, List.map_inj_left, Function.comp]

end Assignment

namespace Equation

/-- A system with a solution is solved. -/
theorem exists_solve_eq_ok {θ : Assignment} {equations : List Equation}
    (h : θ.Solves equations) : ∃ s, solve equations = .ok s :=
  Term.exists_unify_eq_ok (Assignment.solves_iff_unifies_sides.mp h)

/-- A system with a solution has no equation at which it first fails. -/
theorem firstConflict_eq_missing {θ : Assignment} {equations : List Equation}
    (h : θ.Solves equations) : firstConflict equations = .missing := by
  obtain ⟨s, hs⟩ := exists_solve_eq_ok h
  exact firstConflictWithin_eq_missing hs

end Equation

namespace Term

/-- Whatever makes two terms equal agrees with every binding that is found for them. -/
theorem value_eq_of_get?_eq_some {left right : Term} {s : Substitution}
    (h : left.unify right = .ok s) {u : Unknown} {term : Term} (hu : s.get? u = some term)
    {θ : Assignment} (hθ : θ.Unifies left right) : θ u = θ.value term := by
  obtain ⟨made, run, rfl⟩ := run_of_unify h
  exact (run.meets_pair_iff θ).mpr hθ (u, term) (mem_of_get?_eq_some hu)

/-- Terms for which no bindings are found cannot be made equal. -/
theorem not_unifies_of_unify_eq_error {left right : Term} {unsolved : Unsolved}
    (h : left.unify right = .error unsolved) (θ : Assignment) : ¬ θ.Unifies left right := by
  intro hθ
  obtain ⟨s, hs⟩ := exists_unify_eq_ok hθ
  rw [h] at hs
  cases hs

/-- **What has a solution is solved.** A pair with a common instance gets a substitution that every common instance
agrees with; a clash is reported only where there is none, and a conflict only in a system without a solution. -/
theorem unify_complete :
    (∀ left right : Term, (∃ θ : Assignment, θ.Unifies left right) →
      ∃ s, left.unify right = .ok s ∧ ∀ u term, s.get? u = some term →
        ∀ θ : Assignment, θ.Unifies left right → θ u = θ.value term) ∧
    (∀ (left right : Term) (clash : Clash), left.unify right = .error (.clash clash) →
      ¬ ∃ θ : Assignment, θ.Unifies left right) ∧
    ∀ equations : List Equation, (∃ θ : Assignment, θ.Solves equations) →
      Equation.firstConflict equations = .missing := by
  refine ⟨?_, ?_, ?_⟩
  · rintro left right ⟨θ, hθ⟩
    obtain ⟨s, hs⟩ := exists_unify_eq_ok hθ
    exact ⟨s, hs, fun u term hu θ' hθ' => value_eq_of_get?_eq_some hs hu hθ'⟩
  · rintro left right clash hclash ⟨θ, hθ⟩
    exact not_unifies_of_unify_eq_error hclash θ hθ
  · rintro equations ⟨θ, hθ⟩
    exact Equation.firstConflict_eq_missing hθ

end Term

/-! ### `[x, x]` and `[y, a]`, and what does not go with `a` -/

namespace Shared

def x : Term := .unknown ⟨0, 0, "x"⟩

def y : Term := .unknown ⟨0, 1, "y"⟩

def a : Term := .atom ⟨1, 0, "a"⟩

def b : Term := .atom ⟨1, 1, "b"⟩

def equations : List Equation := [⟨x, y, .startReturnsField⟩, ⟨x, a, .finishTakesField⟩]

theorem unify_complete_shared :
    (∃ s, (Term.seq [x, x]).unify (.seq [y, a]) = .ok s) ∧
      (∃ clash, a.unify b = .error (.clash clash) ∧ ¬ ∃ θ : Assignment, θ.Unifies a b) ∧
      Equation.firstConflict equations = .missing := by
  obtain ⟨hsolved, hclash, hconflict⟩ := Term.unify_complete
  refine ⟨?_, ?_, ?_⟩
  · obtain ⟨s, hs, -⟩ := hsolved (.seq [x, x]) (.seq [y, a]) ⟨fun _ => a, rfl⟩
    exact ⟨s, hs⟩
  · have hunify : a.unify b = .error (.clash ⟨a, b, .distinctAtoms⟩) := by
      with_unfolding_all rfl
    exact ⟨_, hunify, hclash a b _ hunify⟩
  · refine hconflict equations ⟨fun _ => a, ?_⟩
    intro equation hequation
    simp only [equations, List.mem_cons, List.not_mem_nil, or_false] at hequation
    rcases hequation with rfl | rfl <;> rfl

end Shared

end BuilderFields
