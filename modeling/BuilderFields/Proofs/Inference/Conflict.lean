import BuilderFields.Proofs.Inference.Soundness

/-!
# The equation that is reported with a clash

Inference solves the equations of a field at once, and when they clash it looks for the first equation that cannot be
added to those before it. Both come to the same equation and to the same clash, so a reader who is shown the two of
them is shown one thing.
-/

namespace BuilderFields

namespace Equation

variable {depth : Nat} {equations : List Equation}

/-- At a depth that is enough, a system has no first conflict exactly if it is solved. -/
theorem firstConflictWithin_eq_missing_iff (h : solveWithin depth equations ≠ .error .tooDeep) :
    firstConflictWithin depth equations = .missing ↔ ∃ s, solveWithin depth equations = .ok s := by
  constructor
  · intro hmissing
    cases hsolve : solveWithin depth equations with
    | ok s => exact ⟨s, rfl⟩
    | error unsolved =>
        cases unsolved with
        | tooDeep => exact absurd hsolve h
        | clash clash =>
            obtain ⟨place, hplace, -⟩ := exists_firstConflictWithin_eq_found hsolve
            rw [hmissing] at hplace
            cases hplace
  · rintro ⟨s, hs⟩
    exact firstConflictWithin_eq_missing hs

/-- The search for a conflict is cut off exactly where solving is. -/
theorem firstConflictWithin_eq_tooDeep_iff (hne : equations ≠ []) :
    firstConflictWithin depth equations = .tooDeep ↔
      solveWithin depth equations = .error .tooDeep := by
  refine ⟨fun hdeep => ?_, firstConflictWithin_eq_tooDeep hne⟩
  cases hsolve : solveWithin depth equations with
  | ok s =>
      rw [firstConflictWithin_eq_missing hsolve] at hdeep
      cases hdeep
  | error unsolved =>
      cases unsolved with
      | tooDeep => rfl
      | clash clash =>
          obtain ⟨place, hplace, -⟩ := exists_firstConflictWithin_eq_found hsolve
          rw [hdeep] at hplace
          cases hplace

end Equation

/-- An inference that ends in a clash reports the equation at which its equations clash. -/
theorem exists_equation_of_outcome_clash {start finish : Option Signature} {consumer : TypeExpr}
    {style : String} {it : Indeterminate} {clash : Clash}
    (h : (inferFieldLogged start finish consumer style).outcome = .ok (.error it))
    (hclash : it.clash = some clash) :
    ∃ pair system place equation, StylePair.check start finish style = .ok pair ∧
      FieldSystem.ofPair pair consumer = .ok system ∧
      Equation.solve system.equations = .error (.clash clash) ∧
      system.equations[place]? = some equation ∧ it.equation = some equation ∧
      Equation.ClashesFirst system.equations place clash := by
  obtain ⟨pair, system, hpair, hsystem, hsolve⟩ := exists_solve_of_outcome_inferFieldLogged h
  refine ⟨pair, system, ?_⟩
  cases hs : Equation.solve system.equations with
  | ok s =>
      -- A field that is still open is reported without a clash.
      cases hterm : s.resolve (.unknown system.field) with
      | error cycle => simp [FieldSystem.solve_of_cycle hs hterm] at hsolve
      | ok term =>
          by_cases hground : term.isGround
          · simp [FieldSystem.solve_of_isGround hs hterm hground] at hsolve
          · rw [FieldSystem.solve_of_not_isGround hs hterm hground] at hsolve
            cases hsolve
            cases hclash
  | error unsolved =>
      cases unsolved with
      | tooDeep => simp [FieldSystem.solve_of_tooDeep hs] at hsolve
      | clash found =>
          obtain ⟨place, hfirst, heq⟩ := FieldSystem.exists_solve_eq_of_clash hs style
          rw [heq] at hsolve
          cases hsolve
          obtain rfl : found = clash := Option.some.inj hclash
          have hequation := List.getElem?_eq_getElem hfirst.lt
          exact ⟨place, _, hpair, hsystem, rfl, hequation, hequation, hfirst⟩

/-- **A conflict is where solving clashes.** At whatever depth a system is answered, as at that of `Equation.solve`, its
first conflict is missing exactly when the system is solved, and is otherwise the equation at which solving clashes:
what stops short of it is solved, and what takes it in ends in the very same clash. Where a system is cut off, so is
the search for its conflict. The equation at which a field clashes is the one reported with the clash. -/
theorem firstConflict_clashesFirst :
    (∀ (depth : Nat) (equations : List Equation),
      Equation.solveWithin depth equations ≠ .error .tooDeep →
      (Equation.firstConflictWithin depth equations = .missing ↔
        ∃ s, Equation.solveWithin depth equations = .ok s) ∧
      ∀ clash, Equation.solveWithin depth equations = .error (.clash clash) →
        ∃ place, Equation.firstConflictWithin depth equations = .found place ∧
          Equation.ClashesFirst equations place clash) ∧
    (∀ (depth : Nat) (equations : List Equation), equations ≠ [] →
      (Equation.firstConflictWithin depth equations = .tooDeep ↔
        Equation.solveWithin depth equations = .error .tooDeep)) ∧
    ∀ (start finish : Option Signature) (consumer : TypeExpr) (style : String) (it : Indeterminate)
      (clash : Clash),
      (inferFieldLogged start finish consumer style).outcome = .ok (.error it) →
      it.clash = some clash →
      ∃ pair system place equation, StylePair.check start finish style = .ok pair ∧
        FieldSystem.ofPair pair consumer = .ok system ∧
        Equation.solve system.equations = .error (.clash clash) ∧
        system.equations[place]? = some equation ∧ it.equation = some equation ∧
        Equation.ClashesFirst system.equations place clash := by
  refine ⟨fun depth equations h => ⟨Equation.firstConflictWithin_eq_missing_iff h, ?_⟩, ?_, ?_⟩
  · intro clash hclash
    exact Equation.exists_firstConflictWithin_eq_found hclash
  · intro depth equations hne
    exact Equation.firstConflictWithin_eq_tooDeep_iff hne
  · intro start finish consumer style it clash h hclash
    exact exists_equation_of_outcome_clash h hclash

/-! ### `<T> Acc<T> start()` and `<U> List<U> finish(Acc<U> acc)` where `String` is expected -/

namespace Mismatched

def start : Signature :=
  ⟨"start", ["T"], [], .declared "Acc" [.typeVar "T"]⟩

def finish : Signature :=
  ⟨"finish", ["U"], [⟨"acc", .declared "Acc" [.typeVar "U"]⟩], .declared "List" [.typeVar "U"]⟩

def consumer : TypeExpr :=
  .declared "String" []

def list : Term :=
  .seq [.atom ⟨0, 1, "List"⟩, .unknown ⟨0, 2, "U"⟩]

def string : Term :=
  .seq [.atom ⟨0, 2, "String"⟩]

def equation : Equation :=
  ⟨list, string, .finishReturnsConsumer⟩

def equations : List Equation := [
  ⟨.seq [.atom ⟨0, 0, "Acc"⟩, .unknown ⟨0, 1, "T"⟩], .unknown ⟨0, 0, "F"⟩, .startReturnsField⟩,
  ⟨.unknown ⟨0, 0, "F"⟩, .seq [.atom ⟨0, 0, "Acc"⟩, .unknown ⟨0, 2, "U"⟩], .finishTakesField⟩,
  equation]

def clash : Clash :=
  ⟨list, string, .lengths 2 1⟩

theorem solve_eq : Equation.solve equations = .error (.clash clash) := by
  with_unfolding_all rfl

theorem outcome_eq :
    (inferFieldLogged (some start) (some finish) consumer anonymousStyle).outcome =
      .ok (.error ⟨.noFieldType anonymousStyle, some clash, some equation⟩) := by
  with_unfolding_all rfl

theorem clashesFirst_equations :
    Equation.solve equations = .error (.clash clash) ∧
      (∃ place, Equation.firstConflict equations = .found place ∧
        Equation.ClashesFirst equations place clash) ∧
      (inferFieldLogged (some start) (some finish) consumer anonymousStyle).outcome =
        .ok (.error ⟨.noFieldType anonymousStyle, some clash, some equation⟩) ∧
      ∃ (system : FieldSystem) (place : Nat), system.equations[place]? = some equation ∧
        Equation.ClashesFirst system.equations place clash := by
  obtain ⟨hsystems, -, hfields⟩ := firstConflict_clashesFirst
  have hanswered : Equation.solve equations ≠ .error .tooDeep := by simp [solve_eq]
  obtain ⟨-, hconflict⟩ := hsystems (Equation.searchDepth equations) equations hanswered
  obtain ⟨-, system, place, found, -, -, -, hfound, hreported, hfirst⟩ :=
    hfields _ _ _ _ _ clash outcome_eq rfl
  cases hreported
  exact ⟨solve_eq, hconflict clash solve_eq, outcome_eq, system, place, hfound, hfirst⟩

end Mismatched

end BuilderFields
