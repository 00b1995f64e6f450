import BuilderFields.Proofs.Inference.System

/-!
# When an inferred field fits

The solver may return a substitution for equations that have no solution, and the field is then inferred as a
term that fits neither operation. That is the only way in which an inferred field can be wrong: as soon as the
equations have a solution at all, the inferred term is what every solution gives the field. In terms of the
solver, the bindings made on the way have to agree, those that were overwritten included.
-/

namespace BuilderFields

open Substitution

namespace FieldSystem

/-- Some solution of the equations gives the field this term. -/
def Attains (system : FieldSystem) (term : Term) : Prop :=
  ∃ θ, system.Solution θ ∧ θ system.field = term

variable {system : FieldSystem} {made : List Binding} {term : Term} {θ : Assignment}

/-- What the field resolves to has the value of the field in every solution. -/
theorem value_of_resolve_field (run : system.Binds made)
    (hterm : (ofList made).resolve (.unknown system.field) = .ok term)
    (hsolution : system.Solution θ) : θ.value term = θ system.field := by
  have hmeets := (solves_iff_meets run θ).mp hsolution.solves
  rw [value_of_resolve hmeets hterm, Assignment.value_unknown]

/-- A ground answer is the value of the field in every solution. -/
theorem field_eq_of_resolve_isGround (run : system.Binds made)
    (hterm : (ofList made).resolve (.unknown system.field) = .ok term) (hground : term.isGround)
    (hsolution : system.Solution θ) : θ system.field = term := by
  rw [← value_of_resolve_field run hterm hsolution, Assignment.value_eq_self_of_isGround θ hground]

/-- Where no binding is lost, filling the open unknowns gives a solution. -/
theorem solution_filled (run : system.Binds made)
    (hhonours : (ofList made).Honours made) {filler : Term} (hfiller : filler.isGround) :
    system.Solution ((ofList made).filled filler) where
  isGround := isGround_filled hfiller
  solves := (solves_iff_meets run _).mpr (hhonours.filled_meets filler)

end FieldSystem

/-- **When an inferred field fits.** A solution of the three equations gives the field the inferred term exactly
when one assignment meets all bindings that the solver made, and it does when the substitution returned honours
them. -/
theorem attains_inferred_iff_exists_meets {start finish : Option Signature} {consumer : TypeExpr}
    {style : String} {inference : FieldInference}
    (h : (inferFieldLogged start finish consumer style).outcome = .ok (.ok inference)) :
    ∃ pair system made, StylePair.check start finish style = .ok pair ∧
      FieldSystem.ofPair pair consumer = .ok system ∧
      system.Binds made ∧ Equation.solve system.equations = .ok (ofList made) ∧
      (system.Attains inference.term ↔ ∃ θ : Assignment, θ.IsGround ∧ θ.Meets made) ∧
      ((ofList made).Honours made → system.Attains inference.term) := by
  obtain ⟨pair, system, hpair, hsystem, hsolve⟩ := exists_solve_of_outcome_inferFieldLogged h
  obtain ⟨s, hs, hterm, hground, -⟩ := FieldSystem.exists_solve_eq_ok_of_solve hsolve
  obtain ⟨made, run, rfl⟩ := FieldSystem.exists_binds_of_solve hs
  refine ⟨pair, system, made, hpair, hsystem, run, hs, ⟨?_, ?_⟩, ?_⟩
  · rintro ⟨θ, hsolution, -⟩
    exact ⟨θ, hsolution.isGround, (FieldSystem.solves_iff_meets run θ).mp hsolution.solves⟩
  · rintro ⟨θ, hθ, hmeets⟩
    have hsolution : system.Solution θ := ⟨hθ, (FieldSystem.solves_iff_meets run θ).mpr hmeets⟩
    exact ⟨θ, hsolution, FieldSystem.field_eq_of_resolve_isGround run hterm hground hsolution⟩
  · intro hhonours
    have hfiller : (Term.seq []).isGround := rfl
    have hsolution := FieldSystem.solution_filled run hhonours hfiller
    exact ⟨_, hsolution, FieldSystem.field_eq_of_resolve_isGround run hterm hground hsolution⟩

/-! ### `<T> Acc<T> start()` and `<U> U finish(Acc<U> acc)` where `String` is expected -/

namespace Plain

def start : Signature :=
  ⟨"start", ["T"], [], .declared "Acc" [.typeVar "T"]⟩

def accumulator : Parameter :=
  ⟨"acc", .declared "Acc" [.typeVar "U"]⟩

def finish : Signature :=
  ⟨"finish", ["U"], [accumulator], .typeVar "U"⟩

def consumer : TypeExpr :=
  .declared "String" []

def acc (argument : Term) : Term :=
  .seq [.atom ⟨0, 0, "Acc"⟩, argument]

def string : Term :=
  .seq [.atom ⟨0, 1, "String"⟩]

def system : FieldSystem where
  registry := ⟨0, ["Acc", "String"], 3⟩
  field := ⟨0, 0, "F"⟩
  equations := [
    ⟨acc (.unknown ⟨0, 1, "T"⟩), .unknown ⟨0, 0, "F"⟩, .startReturnsField⟩,
    ⟨.unknown ⟨0, 0, "F"⟩, acc (.unknown ⟨0, 2, "U"⟩), .finishTakesField⟩,
    ⟨.unknown ⟨0, 2, "U"⟩, string, .finishReturnsConsumer⟩]

theorem ofPair_eq : FieldSystem.ofPair ⟨start, finish, accumulator⟩ consumer = .ok system := rfl

theorem solve_eq :
    Equation.solve system.equations = .ok (ofList [
      (⟨0, 0, "F"⟩, acc (.unknown ⟨0, 1, "T"⟩)),
      (⟨0, 1, "T"⟩, .unknown ⟨0, 2, "U"⟩),
      (⟨0, 2, "U"⟩, string)]) := by
  with_unfolding_all rfl

theorem outcome_eq :
    (inferFieldLogged (some start) (some finish) consumer anonymousStyle).outcome =
      .ok (.ok ⟨system.registry, acc string⟩) :=
  outcome_eq_of_isGround rfl ofPair_eq solve_eq rfl rfl

def strings : Assignment :=
  fun u => if u = system.field then acc string else string

theorem solution_strings : system.Solution strings where
  isGround := by
    intro u
    unfold strings
    split <;> rfl
  solves := by
    intro equation hequation
    simp only [system, List.mem_cons, List.not_mem_nil, or_false] at hequation
    rcases hequation with rfl | rfl | rfl <;> rfl

theorem attains_inferred :
    (inferFieldLogged (some start) (some finish) consumer anonymousStyle).outcome =
        .ok (.ok ⟨system.registry, acc string⟩) ∧
      system.Attains (acc string) := by
  obtain ⟨pair, found, made, hpair, hfound, run, -, hiff, -⟩ :=
    attains_inferred_iff_exists_meets outcome_eq
  cases hpair
  obtain rfl : found = system := Except.ok.inj (hfound.symm.trans ofPair_eq)
  have hmeets := (FieldSystem.solves_iff_meets run strings).mp solution_strings.solves
  exact ⟨outcome_eq, hiff.mpr ⟨strings, solution_strings.isGround, hmeets⟩⟩

end Plain

/-! ### `<T> Acc<List<T>, T> start()` and `<U> Box<U> finish(Acc<U, String> acc)`

`T` is bound to `String` while `U` is bound to `List<T>`, and then to `Integer` where `Box<List<Integer>>` is
expected: the later binding overwrites the earlier one and the field comes out as `Acc<List<Integer>, Integer>`. -/

namespace Conflicting

def start : Signature :=
  ⟨"start", ["T"], [], .declared "Acc" [.declared "List" [.typeVar "T"], .typeVar "T"]⟩

def accumulator : Parameter :=
  ⟨"acc", .declared "Acc" [.typeVar "U", .declared "String" []]⟩

def finish : Signature :=
  ⟨"finish", ["U"], [accumulator], .declared "Box" [.typeVar "U"]⟩

def consumer : TypeExpr :=
  .declared "Box" [.declared "List" [.declared "Integer" []]]

def acc (first second : Term) : Term :=
  .seq [.atom ⟨0, 0, "Acc"⟩, first, second]

def list (argument : Term) : Term :=
  .seq [.atom ⟨0, 1, "List"⟩, argument]

def string : Term :=
  .seq [.atom ⟨0, 2, "String"⟩]

def box (argument : Term) : Term :=
  .seq [.atom ⟨0, 3, "Box"⟩, argument]

def integer : Term :=
  .seq [.atom ⟨0, 4, "Integer"⟩]

def ofStart : Term :=
  .unknown ⟨0, 1, "T"⟩

def ofFinish : Term :=
  .unknown ⟨0, 2, "U"⟩

def system : FieldSystem where
  registry := ⟨0, ["Acc", "List", "String", "Box", "Integer"], 3⟩
  field := ⟨0, 0, "F"⟩
  equations := [
    ⟨acc (list ofStart) ofStart, .unknown ⟨0, 0, "F"⟩, .startReturnsField⟩,
    ⟨.unknown ⟨0, 0, "F"⟩, acc ofFinish string, .finishTakesField⟩,
    ⟨box ofFinish, box (list integer), .finishReturnsConsumer⟩]

theorem ofPair_eq : FieldSystem.ofPair ⟨start, finish, accumulator⟩ consumer = .ok system := rfl

theorem not_attains (term : Term) : ¬ system.Attains term := by
  rintro ⟨θ, ⟨-, hsolves⟩, -⟩
  simp only [Assignment.Solves, Assignment.Unifies, system, acc, list, box, string, integer, ofStart,
    ofFinish, List.forall_mem_cons] at hsolves
  obtain ⟨hstart, hfinish, hbox, -⟩ := hsolves
  rw [hfinish] at hstart
  simp only [Assignment.value_seq, Assignment.value_atom, Assignment.value_unknown, List.map_cons,
    List.map_nil, Term.seq.injEq, List.cons.injEq, and_true, true_and] at hstart hbox
  -- `T` is what the second argument of the accumulator is, and what the list in the box is of.
  obtain ⟨hlist, hstring⟩ := hstart
  rw [hbox, hstring] at hlist
  simp at hlist

theorem inferred_not_attained :
    (inferFieldLogged (some start) (some finish) consumer anonymousStyle).outcome =
        .ok (.ok ⟨system.registry, acc (list integer) integer⟩) ∧
      FieldSystem.ofPair ⟨start, finish, accumulator⟩ consumer = .ok system ∧
      ¬ system.Attains (acc (list integer) integer) := by
  have hs : Equation.solve system.equations = .ok (ofList [
      (⟨0, 0, "F"⟩, acc (list ofStart) ofStart),
      (⟨0, 2, "U"⟩, list ofStart),
      (⟨0, 1, "T"⟩, integer)]) := by
    with_unfolding_all rfl
  exact ⟨outcome_eq_of_isGround rfl ofPair_eq hs rfl rfl, ofPair_eq, not_attains _⟩

end Conflicting

end BuilderFields
