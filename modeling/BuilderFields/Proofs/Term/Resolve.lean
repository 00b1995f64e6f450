import BuilderFields.Proofs.Term.Assignment
import Mathlib.Logic.Function.Iterate

/-!
# Resolving as a limit of passes

Resolving stops at the first pass that changes nothing and is allowed one pass more than there are bindings.
So a term resolves exactly when the term reached after as many passes as there are bindings is at rest, and
that term is the result. Reaching it is one assignment, `limit`, which no longer mentions the term that is
resolved: what a term resolves to is decided by its unknowns one by one.
-/

namespace BuilderFields

namespace Substitution

variable {s : Substitution} {term settled : Term}

/-- The passes stop at a term that one more of them leaves as it is. -/
theorem settle_succ_eq_some_iff {passes : Nat} :
    s.settle (passes + 1) term = some settled ↔
      s.apply^[passes] term = settled ∧ s.apply settled = settled := by
  induction passes generalizing term with
  | zero =>
      by_cases hrest : s.apply term = term
      · simp only [settle, hrest, if_true, Option.some.injEq, Function.iterate_zero, id]
        constructor
        · rintro rfl
          exact ⟨rfl, hrest⟩
        · exact And.left
      · simp only [settle, hrest, if_false, reduceCtorEq, Function.iterate_zero, id, false_iff]
        rintro ⟨rfl, h⟩
        exact hrest h
  | succ passes ih =>
      by_cases hrest : s.apply term = term
      · rw [settle, hrest, if_pos rfl, Function.iterate_fixed hrest, Option.some.injEq]
        constructor
        · rintro rfl
          exact ⟨rfl, hrest⟩
        · exact And.left
      · rw [settle, if_neg hrest, ih, Function.iterate_succ_apply]

/-- A term is resolved to what one pass for each binding makes of it, if that is fixed. -/
theorem resolve_eq_ok_iff :
    s.resolve term = .ok settled ↔ s.apply^[s.size] term = settled ∧ s.apply settled = settled := by
  rw [← settle_succ_eq_some_iff]
  unfold resolve passLimit
  cases s.settle (s.size + 1) term <;> simp

/-- The term that each unknown has come to after the last pass that may change anything. -/
def limit (s : Substitution) : Assignment :=
  fun u => s.apply^[s.size] (.unknown u)

/-- Several passes over a term are several passes over each of its unknowns. -/
theorem iterate_apply_eq_value (s : Substitution) (passes : Nat) (term : Term) :
    s.apply^[passes] term = Assignment.value (fun u => s.apply^[passes] (.unknown u)) term := by
  induction term using Term.inductionOn with
  | atom a => simpa using Function.iterate_fixed (s.apply_atom a) passes
  | unknown u => simp
  | seq items ih =>
      rw [Assignment.value_seq, ← List.map_congr_left ih]
      clear ih
      induction passes generalizing items with
      | zero => simp
      | succ passes ih => simp [Function.iterate_succ_apply, ih]

theorem value_limit (s : Substitution) (term : Term) : s.limit.value term = s.apply^[s.size] term :=
  (s.iterate_apply_eq_value s.size term).symm

theorem resolve_eq_ok_iff_limit :
    s.resolve term = .ok settled ↔ s.limit.value term = settled ∧ s.apply settled = settled := by
  rw [value_limit, resolve_eq_ok_iff]

theorem limit_value_of_resolve (h : s.resolve term = .ok settled) : s.limit.value term = settled :=
  (resolve_eq_ok_iff_limit.mp h).1

def Resolves (s : Substitution) (term : Term) : Prop :=
  ∃ settled, s.resolve term = .ok settled

/-- A term is resolved exactly if a further pass fixes its limit. -/
theorem resolves_iff_apply_limit :
    s.Resolves term ↔ s.apply (s.limit.value term) = s.limit.value term := by
  constructor
  · rintro ⟨settled, h⟩
    obtain ⟨rfl, hrest⟩ := resolve_eq_ok_iff_limit.mp h
    exact hrest
  · intro hrest
    exact ⟨_, resolve_eq_ok_iff_limit.mpr ⟨rfl, hrest⟩⟩

/-- A term resolves when all its unknowns do. -/
theorem resolves_iff_forall_occurrences :
    s.Resolves term ↔ ∀ u ∈ term.occurrences, s.Resolves (.unknown u) := by
  simp only [resolves_iff_apply_limit, apply_eq_value, ← Assignment.value_comp]
  rw [Assignment.value_eq_value_iff]
  simp [Assignment.comp]

theorem resolve_unknown_of_get?_eq_none {u : Unknown} (h : s.get? u = none) :
    s.resolve (.unknown u) = .ok (.unknown u) := by
  have hrest := apply_unknown_of_get?_eq_none h
  exact resolve_eq_ok_iff.mpr ⟨Function.iterate_fixed hrest s.size, hrest⟩

/-- What resolving leaves open is not bound to anything else. -/
theorem apply_unknown_of_mem_occurrences (h : s.resolve term = .ok settled) {u : Unknown}
    (hu : u ∈ settled.occurrences) : s.apply (.unknown u) = .unknown u := by
  have hrest := (resolve_eq_ok_iff.mp h).2
  rw [apply_eq_value, ← Assignment.value_id settled, ← Assignment.value_comp] at hrest
  have hall := Assignment.value_eq_value_iff.mp hrest u hu
  rw [apply_eq_value]
  simpa [Assignment.comp] using hall

/-- The unknowns left in a resolved term are left alone by the limit. -/
theorem limit_of_mem_occurrences (h : s.resolve term = .ok settled) {u : Unknown}
    (hu : u ∈ settled.occurrences) : s.limit u = .unknown u :=
  Function.iterate_fixed (apply_unknown_of_mem_occurrences h hu) s.size

/-- An assignment that meets the bindings does not notice passes. -/
theorem value_iterate_apply_of_meets {θ : Assignment} {made : List Binding}
    (hmeets : θ.Meets made) (passes : Nat) (term : Term) :
    θ.value ((ofList made).apply^[passes] term) = θ.value term := by
  induction passes with
  | zero => rfl
  | succ passes ih => rw [Function.iterate_succ_apply', value_apply_of_meets hmeets, ih]

/-- Resolving does not change the value under an assignment that meets the bindings. -/
theorem value_of_resolve {θ : Assignment} {made : List Binding} (hmeets : θ.Meets made)
    (h : (ofList made).resolve term = .ok settled) : θ.value settled = θ.value term := by
  obtain ⟨rfl, -⟩ := resolve_eq_ok_iff.mp h
  exact value_iterate_apply_of_meets hmeets _ term

end Substitution

end BuilderFields
