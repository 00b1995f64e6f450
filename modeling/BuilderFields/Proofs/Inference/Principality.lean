import BuilderFields.Proofs.Inference.Soundness

/-!
# When a field that is determined is inferred

Equations that have a solution are always solved by a substitution, but a binding that was overwritten is lost to
it. So the field may resolve to a term that is still open although every solution gives it the same type, or not
come to rest at all. What is inferred is right exactly when neither happens, and neither does while the
substitution honours all bindings made on the way.
-/

namespace BuilderFields

open Substitution

namespace FieldSystem

/-- A field that all solutions agree on is inferred as what they agree on, and one that they do not agree on is
not determined, without a clash. -/
structure Principal (system : FieldSystem)
    (outcome : Except Obstacle (Determined FieldInference)) : Prop where
  returns : ∃ verdict, outcome = .ok verdict
  determined : ∀ term, (∀ θ, system.Solution θ → θ system.field = term) →
    ∃ inference, outcome = .ok (.ok inference) ∧ inference.term = term
  undetermined : ∀ θ θ', system.Solution θ → system.Solution θ' →
    θ system.field ≠ θ' system.field → ∃ it, outcome = .ok (.error it) ∧ it.clash = none

/-- Two solutions give the unknown different terms. -/
def Free (system : FieldSystem) (u : Unknown) : Prop :=
  ∃ θ θ', system.Solution θ ∧ system.Solution θ' ∧ θ u ≠ θ' u

variable {system : FieldSystem} {style : String} {made : List Binding} {term : Term}

/-- The field is as free as the unknowns that it resolves to. -/
theorem free_field_iff (run : system.Binds made)
    (hterm : (ofList made).resolve (.unknown system.field) = .ok term) :
    system.Free system.field ↔ ∃ u ∈ term.occurrences, system.Free u := by
  constructor
  · rintro ⟨θ, θ', hθ, hθ', hne⟩
    rw [← value_of_resolve_field run hterm hθ, ← value_of_resolve_field run hterm hθ', ne_eq,
      Assignment.value_eq_value_iff] at hne
    push Not at hne
    obtain ⟨u, hu, hdiffer⟩ := hne
    exact ⟨u, hu, θ, θ', hθ, hθ', hdiffer⟩
  · rintro ⟨u, hu, θ, θ', hθ, hθ', hne⟩
    refine ⟨θ, θ', hθ, hθ', fun heq => hne ?_⟩
    rw [← value_of_resolve_field run hterm hθ, ← value_of_resolve_field run hterm hθ',
      Assignment.value_eq_value_iff] at heq
    exact heq u hu

/-- A solvable system with a ground answer has that answer in every solution. -/
theorem principal_of_isGround (run : system.Binds made)
    (hs : Equation.solve system.equations = .ok (ofList made))
    (hterm : (ofList made).resolve (.unknown system.field) = .ok term) (hground : term.isGround)
    (hsolvable : ∃ θ, system.Solution θ) : system.Principal (system.solve style) := by
  have hfield : ∀ θ, system.Solution θ → θ system.field = term := fun θ hθ =>
    field_eq_of_resolve_isGround run hterm hground hθ
  rw [solve_of_isGround hs hterm hground]
  refine ⟨⟨_, rfl⟩, fun other hother => ?_, fun θ θ' hθ hθ' hne => ?_⟩
  · obtain ⟨θ, hθ⟩ := hsolvable
    exact ⟨_, rfl, (hfield θ hθ).symm.trans (hother θ hθ)⟩
  · exact absurd ((hfield θ hθ).trans (hfield θ' hθ').symm) hne

/-- An open answer is right exactly if the field is free. -/
theorem principal_iff_free (hs : Equation.solve system.equations = .ok (ofList made))
    (hterm : (ofList made).resolve (.unknown system.field) = .ok term) (hopen : ¬ term.isGround)
    (hsolvable : ∃ θ, system.Solution θ) :
    system.Principal (system.solve style) ↔ system.Free system.field := by
  obtain ⟨θ, hθ⟩ := hsolvable
  rw [solve_of_not_isGround hs hterm hopen]
  constructor
  · intro hprincipal
    by_contra hfree
    have hagree : ∀ θ', system.Solution θ' → θ' system.field = θ system.field := by
      intro θ' hθ'
      by_contra hne
      exact hfree ⟨θ', θ, hθ', hθ, hne⟩
    obtain ⟨inference, hinferred, -⟩ := hprincipal.determined _ hagree
    cases hinferred
  · rintro ⟨θ₁, θ₂, hθ₁, hθ₂, hne⟩
    refine ⟨⟨_, rfl⟩, fun other hother => ?_, fun _ _ _ _ _ => ⟨_, rfl, rfl⟩⟩
    exact absurd ((hother θ₁ hθ₁).trans (hother θ₂ hθ₂).symm) hne

/-- Where no binding is lost, an open answer leaves the field free. -/
theorem free_of_honours (run : system.Binds made) (hhonours : (ofList made).Honours made)
    (hterm : (ofList made).resolve (.unknown system.field) = .ok term) (hopen : ¬ term.isGround) :
    system.Free system.field := by
  rw [Term.isGround_iff] at hopen
  obtain ⟨u, hu⟩ := List.exists_mem_of_ne_nil _ hopen
  have hfirst : (Term.seq []).isGround := rfl
  have hsecond : (Term.seq [.seq []]).isGround := rfl
  refine (free_field_iff run hterm).mpr ⟨u, hu, _, _, solution_filled run hhonours hfirst,
    solution_filled run hhonours hsecond, ?_⟩
  rw [filled_of_mem_occurrences hterm hu, filled_of_mem_occurrences hterm hu]
  simp

theorem principal_of_honours (run : system.Binds made)
    (hs : Equation.solve system.equations = .ok (ofList made))
    (hhonours : (ofList made).Honours made) (hsolvable : ∃ θ, system.Solution θ) :
    system.Principal (system.solve style) := by
  obtain ⟨term, hterm⟩ := hhonours.resolves system.field
  by_cases hground : term.isGround
  · exact principal_of_isGround run hs hterm hground hsolvable
  · exact (principal_iff_free hs hterm hground hsolvable).mpr
      (free_of_honours run hhonours hterm hground)

/-- The verdict on a solvable system is right exactly if the field resolves, to a ground term or to one with a free
unknown. -/
theorem principal_iff_resolve (run : system.Binds made)
    (hs : Equation.solve system.equations = .ok (ofList made))
    (hsolvable : ∃ θ, system.Solution θ) :
    system.Principal (system.solve style) ↔
      ∃ term, (ofList made).resolve (.unknown system.field) = .ok term ∧
        (term.isGround ∨ ∃ u ∈ term.occurrences, system.Free u) := by
  cases hterm : (ofList made).resolve (.unknown system.field) with
  | error cycle =>
      rw [solve_of_cycle hs hterm]
      constructor
      · rintro ⟨⟨verdict, hverdict⟩, -, -⟩
        cases hverdict
      · rintro ⟨term, hok, -⟩
        cases hok
  | ok term =>
      simp only [Except.ok.injEq, exists_eq_left']
      by_cases hground : term.isGround
      · simp only [hground, true_or, iff_true]
        exact principal_of_isGround run hs hterm hground hsolvable
      · simp only [hground, Bool.false_eq_true, false_or]
        rw [principal_iff_free hs hterm hground hsolvable, free_field_iff run hterm]

end FieldSystem

/-- **When a determined field is inferred.** Equations with a solution are answered rightly exactly when the field
comes to rest at a term in which nothing, or at least something free, is open. They are whenever the substitution
that the solver returns honours all bindings made. -/
theorem principal_outcome_iff_exists_resolve {start finish : Option Signature} {consumer : TypeExpr}
    {style : String} {pair : StylePair} {system : FieldSystem}
    (hpair : StylePair.check start finish style = .ok pair)
    (hsystem : FieldSystem.ofPair pair consumer = .ok system)
    (hsolvable : ∃ θ, system.Solution θ) :
    ∃ made, system.Binds made ∧ Equation.solve system.equations = .ok (ofList made) ∧
      (system.Principal (inferFieldLogged start finish consumer style).outcome ↔
        ∃ term, (ofList made).resolve (.unknown system.field) = .ok term ∧
          (term.isGround ∨ ∃ u ∈ term.occurrences, system.Free u)) ∧
      ((ofList made).Honours made →
        system.Principal (inferFieldLogged start finish consumer style).outcome) := by
  obtain ⟨θ, hθ⟩ := hsolvable
  obtain ⟨s, hs⟩ := Equation.exists_solve_eq_ok hθ.solves
  obtain ⟨made, run, rfl⟩ := FieldSystem.exists_binds_of_solve hs
  rw [outcome_inferFieldLogged_of_ofPair hpair hsystem]
  refine ⟨made, run, hs, FieldSystem.principal_iff_resolve run hs ⟨θ, hθ⟩, fun hhonours => ?_⟩
  exact FieldSystem.principal_of_honours run hs hhonours ⟨θ, hθ⟩

namespace Plain

theorem principal_plain :
    StylePair.check (some start) (some finish) anonymousStyle = .ok ⟨start, finish, accumulator⟩ ∧
      FieldSystem.ofPair ⟨start, finish, accumulator⟩ consumer = .ok system ∧
      (∃ θ, system.Solution θ) ∧
      system.Principal
        (inferFieldLogged (some start) (some finish) consumer anonymousStyle).outcome := by
  have hpair : StylePair.check (some start) (some finish) anonymousStyle =
      .ok ⟨start, finish, accumulator⟩ := rfl
  obtain ⟨made, -, hs, hiff, -⟩ :=
    principal_outcome_iff_exists_resolve hpair ofPair_eq ⟨strings, solution_strings⟩
  refine ⟨hpair, ofPair_eq, ⟨strings, solution_strings⟩, hiff.mpr ⟨acc string, ?_, .inl rfl⟩⟩
  rw [← Except.ok.inj (solve_eq.symm.trans hs)]
  rfl

end Plain

/-! ### `<Y> Acc<Q<Y, G<A>>, Y> start()` and `<V, W> R finish(Acc<Q<H<W>, W>, H<V>> acc)`

`W` is bound to `G<A>` inside of `Q`, and to `V` once `Y` has become `H<W>`: what `V` is can no longer be told. -/

namespace Forgotten

def start : Signature :=
  ⟨"start", ["Y"], [], .declared "Acc" [
    .declared "Q" [.typeVar "Y", .declared "G" [.declared "A" []]], .typeVar "Y"]⟩

def accumulator : Parameter :=
  ⟨"acc", .declared "Acc" [
    .declared "Q" [.declared "H" [.typeVar "W"], .typeVar "W"], .declared "H" [.typeVar "V"]]⟩

def finish : Signature :=
  ⟨"finish", ["V", "W"], [accumulator], .declared "R" []⟩

def consumer : TypeExpr :=
  .declared "R" []

def acc (first second : Term) : Term :=
  .seq [.atom ⟨0, 0, "Acc"⟩, first, second]

def q (first second : Term) : Term :=
  .seq [.atom ⟨0, 1, "Q"⟩, first, second]

def ga : Term :=
  .seq [.atom ⟨0, 2, "G"⟩, .seq [.atom ⟨0, 3, "A"⟩]]

def h (argument : Term) : Term :=
  .seq [.atom ⟨0, 4, "H"⟩, argument]

def r : Term :=
  .seq [.atom ⟨0, 5, "R"⟩]

def y : Unknown := ⟨0, 1, "Y"⟩

def v : Unknown := ⟨0, 2, "V"⟩

def w : Unknown := ⟨0, 3, "W"⟩

def system : FieldSystem where
  registry := ⟨0, ["Acc", "Q", "G", "A", "H", "R"], 4⟩
  field := ⟨0, 0, "F"⟩
  equations := [
    ⟨acc (q (.unknown y) ga) (.unknown y), .unknown ⟨0, 0, "F"⟩, .startReturnsField⟩,
    ⟨.unknown ⟨0, 0, "F"⟩, acc (q (h (.unknown w)) (.unknown w)) (h (.unknown v)),
      .finishTakesField⟩,
    ⟨r, r, .finishReturnsConsumer⟩]

theorem ofPair_eq : FieldSystem.ofPair ⟨start, finish, accumulator⟩ consumer = .ok system := rfl

def determined : Term :=
  acc (q (h ga) ga) (h ga)

theorem field_eq_determined {θ : Assignment} (hθ : system.Solution θ) :
    θ system.field = determined := by
  have hsolves := hθ.solves
  simp only [Assignment.Solves, Assignment.Unifies, system, acc, q, h, ga, List.forall_mem_cons]
    at hsolves
  obtain ⟨hstart, hfinish, -⟩ := hsolves
  rw [hfinish] at hstart
  simp only [Assignment.value_seq, Assignment.value_atom, Assignment.value_unknown, List.map_cons,
    List.map_nil, Term.seq.injEq, List.cons.injEq, and_true, true_and] at hstart hfinish
  obtain ⟨⟨hy, hw⟩, hv⟩ := hstart
  have hvw : θ v = θ w := by simpa [hy] using hv.symm
  rw [system, hfinish, hvw, ← hw]
  rfl

def settled : Assignment :=
  fun u => if u = system.field then determined else if u = y then h ga else ga

theorem solution_settled : system.Solution settled where
  isGround := by
    intro u
    unfold settled
    split
    · rfl
    · split <;> rfl
  solves := by
    intro equation hequation
    simp only [system, List.mem_cons, List.not_mem_nil, or_false] at hequation
    rcases hequation with rfl | rfl | rfl <;> rfl

theorem outcome_eq :
    (inferFieldLogged (some start) (some finish) consumer anonymousStyle).outcome =
      .ok (.error ⟨.openFieldType anonymousStyle
        (acc (q (h (.unknown v)) ga) (h (.unknown v))), none, none⟩) := by
  have hs : Equation.solve system.equations = .ok (ofList [
      (system.field, acc (q (.unknown y) ga) (.unknown y)),
      (y, h (.unknown w)),
      (w, .unknown v)]) := by
    with_unfolding_all rfl
  have hpair : StylePair.check (some start) (some finish) anonymousStyle =
      .ok ⟨start, finish, accumulator⟩ := rfl
  rw [outcome_inferFieldLogged_of_ofPair hpair ofPair_eq]
  exact FieldSystem.solve_of_not_isGround hs rfl (by decide)

theorem not_principal :
    FieldSystem.ofPair ⟨start, finish, accumulator⟩ consumer = .ok system ∧
      (∃ θ, system.Solution θ) ∧ (∀ θ, system.Solution θ → θ system.field = determined) ∧
      ¬ system.Principal
        (inferFieldLogged (some start) (some finish) consumer anonymousStyle).outcome := by
  refine ⟨ofPair_eq, ⟨settled, solution_settled⟩, fun θ => field_eq_determined, ?_⟩
  intro hprincipal
  obtain ⟨inference, hinferred, -⟩ :=
    hprincipal.determined determined fun θ => field_eq_determined
  rw [outcome_eq] at hinferred
  cases hinferred

end Forgotten

end BuilderFields
