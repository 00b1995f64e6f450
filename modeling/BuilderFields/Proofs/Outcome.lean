import BuilderFields.Log.Logged
import Mathlib.Data.List.Forall2

/-!
# Outcomes taken apart

A computation that gave a value is taken apart into the steps that gave theirs, one bind at a time. Two computations
are parallel if they end the same way, with errors or with values that correspond.
-/

namespace BuilderFields

theorem exists_of_bind_eq_ok {ε α β : Type} {x : Except ε α} {f : α → Except ε β} {value : β}
    (h : (x >>= f) = .ok value) : ∃ found, x = .ok found ∧ f found = .ok value := by
  cases x with
  | error fault => cases h
  | ok found => exact ⟨found, rfl, h⟩

/-- A check on the value of an outcome, for outcomes that are found by evaluation. -/
theorem exists_of_any_toOption {ε α : Type} {x : Except ε α} {check : α → Bool}
    (h : x.toOption.any check) : ∃ value, x = .ok value ∧ check value := by
  cases x with
  | error fault => cases h
  | ok value => exact ⟨value, rfl, h⟩

theorem bind_eq_ok_iff {ε α β : Type} {x : Except ε α} {f : α → Except ε β} {value : β} :
    (x >>= f) = .ok value ↔ ∃ found, x = .ok found ∧ f found = .ok value := by
  refine ⟨exists_of_bind_eq_ok, ?_⟩
  rintro ⟨found, rfl, h⟩
  exact h

theorem bind_eq_error_iff {ε α β : Type} {x : Except ε α} {f : α → Except ε β} {fault : ε} :
    (x >>= f) = .error fault ↔
      x = .error fault ∨ ∃ found, x = .ok found ∧ f found = .error fault := by
  cases x with
  | error other =>
      refine ⟨fun h => .inl (by cases h; rfl), ?_⟩
      rintro (h | ⟨_, h, -⟩) <;> cases h
      rfl
  | ok value =>
      refine ⟨fun h => .inr ⟨value, rfl, h⟩, ?_⟩
      rintro (h | ⟨_, h, hfault⟩) <;> cases h
      exact hfault

theorem map_eq_ok_iff {ε α β : Type} {x : Except ε α} {f : α → β} {value : β} :
    x.map f = .ok value ↔ ∃ found, x = .ok found ∧ f found = value := by
  cases x <;> simp [Except.map]

/-- A list is read as a whole if each of its items is read. -/
theorem mapM_eq_ok_iff {ε α β : Type} {f : α → Except ε β} {items : List α} {values : List β} :
    items.mapM f = .ok values ↔ List.Forall₂ (fun item value => f item = .ok value) items values := by
  induction items generalizing values with
  | nil =>
      rw [List.mapM_nil, List.forall₂_nil_left_iff]
      exact ⟨fun h => (Except.ok.inj h).symm, fun h => h ▸ rfl⟩
  | cons first rest ih =>
      rw [List.mapM_cons, List.forall₂_cons_left_iff, bind_eq_ok_iff]
      constructor
      · rintro ⟨value, hvalue, h⟩
        obtain ⟨others, hothers, h⟩ := exists_of_bind_eq_ok h
        exact ⟨value, others, hvalue, ih.mp hothers, (Except.ok.inj h).symm⟩
      · rintro ⟨value, others, hvalue, hothers, rfl⟩
        exact ⟨value, hvalue, bind_eq_ok_iff.mpr ⟨others, ih.mpr hothers, rfl⟩⟩

/-- Where reading an item gives what a function gives, reading the list maps the function over it. -/
theorem mapM_eq_ok_map {ε α β : Type} {f : α → Except ε β} {g : α → β} {items : List α}
    (h : ∀ item ∈ items, f item = .ok (g item)) : items.mapM f = .ok (items.map g) :=
  mapM_eq_ok_iff.mpr (List.forall₂_map_right_iff.mpr (List.forall₂_same.mpr h))

theorem mapError_eq_ok_iff {ε ε' α : Type} {f : ε → ε'} {x : Except ε α} {value : α} :
    x.mapError f = .ok value ↔ x = .ok value := by
  cases x <;> simp [Except.mapError]

theorem Logged.exists_of_outcome_bind {ε α β : Type} {x : Logged ε α} {f : α → Logged ε β}
    {value : β} (h : (x >>= f).outcome = .ok value) :
    ∃ found, x.outcome = .ok found ∧ (f found).outcome = .ok value := by
  rw [Logged.outcome_bind] at h
  exact exists_of_bind_eq_ok h

inductive Parallel {ε ε' α α' : Type} (E : ε → ε' → Prop) (R : α → α' → Prop) :
    Except ε α → Except ε' α' → Prop
  | error {e e'} (h : E e e') : Parallel E R (.error e) (.error e')
  | ok {a a'} (h : R a a') : Parallel E R (.ok a) (.ok a')

theorem Parallel.map {ε ε' α α' β β' : Type} {E : ε → ε' → Prop} {R : α → α' → Prop}
    {Q : β → β' → Prop} {f : α → β} {f' : α' → β'} {x : Except ε α} {x' : Except ε' α'}
    (h : Parallel E R x x') (hf : ∀ a a', R a a' → Q (f a) (f' a')) :
    Parallel E Q (x.map f) (x'.map f') := by
  cases h with
  | error herror => exact .error herror
  | ok hok => exact .ok (hf _ _ hok)

end BuilderFields
