import BuilderFields.Inference.Report
import BuilderFields.Proofs.Registry
import BuilderFields.Proofs.Term.Completeness
import BuilderFields.Proofs.Term.Soundness

/-!
# The equations of a field and how they end

The equations are solved over the registry that encoded them, so a field without unknowns is always rendered, and
reporting an inference never ends it. What is left of an inference is the equations and the bindings that the
solver makes for them, which have the same solutions.
-/

namespace BuilderFields

open Substitution

namespace FieldSystem

structure Solution (system : FieldSystem) (θ : Assignment) : Prop where
  isGround : θ.IsGround
  solves : θ.Solves system.equations

def Binds (system : FieldSystem) (made : List Binding) : Prop :=
  Run [(Equation.leftSides system.equations, Equation.rightSides system.equations)] made

variable {system : FieldSystem} {style : String} {s : Substitution} {made : List Binding}
  {term : Term} {inference : FieldInference}

/-- The system of a pair, from what its types are encoded as. -/
theorem ofPair_of_encode {pair : StylePair} {consumer : TypeExpr} {ofStart ofFinish : Overrides}
    {g g₁ g₂ g₃ g₄ g₅ : Registry} {started taken finished expected : Term}
    (hstart : ((Registry.fresh 0).freshUnknown "F").2.typeParameters pair.start.typeParameters [] =
      (ofStart, g))
    (hfinish : g.typeParameters pair.finish.typeParameters [] = (ofFinish, g₁))
    (hstarted : g₁.encode ofStart pair.start.returnType = (.ok started, g₂))
    (htaken : g₂.encode ofFinish pair.accumulator.type = (.ok taken, g₃))
    (hfinished : g₃.encode ofFinish pair.finish.returnType = (.ok finished, g₄))
    (hexpected : g₄.encode [] consumer = (.ok expected, g₅)) :
    ofPair pair consumer = .ok {
      registry := g₅
      field := ((Registry.fresh 0).freshUnknown "F").1
      equations := [
        ⟨started, .unknown ((Registry.fresh 0).freshUnknown "F").1, .startReturnsField⟩,
        ⟨.unknown ((Registry.fresh 0).freshUnknown "F").1, taken, .finishTakesField⟩,
        ⟨finished, expected, .finishReturnsConsumer⟩] } := by
  simp [ofPair, hstart, hfinish, hstarted, htaken, hfinished, hexpected]

/-- The registry of a system can render its equations. -/
theorem holds_sides_of_ofPair {pair : StylePair} {consumer : TypeExpr}
    (h : ofPair pair consumer = .ok system) :
    system.registry.Holds (Equation.leftSides system.equations) ∧
      system.registry.Holds (Equation.rightSides system.equations) := by
  unfold ofPair at h
  dsimp only at h
  split at h
  · cases h
  rename_i started hstarted
  split at h
  · cases h
  rename_i taken htaken
  split at h
  · cases h
  rename_i finished hfinished
  split at h
  · cases h
  rename_i expected hexpected
  cases h
  -- Each side was held when it was encoded, and the registry has only grown since.
  refine ⟨.seq (List.cons_ne_nil _ _) ?_, .seq (List.cons_ne_nil _ _) ?_⟩
  · refine List.forall_mem_cons.mpr ⟨?_, List.forall_mem_cons.mpr ⟨.unknown _, ?_⟩⟩
    · exact (Registry.holds_encode hstarted).grows ((Registry.grows_encode _ _ _).trans
        ((Registry.grows_encode _ _ _).trans (Registry.grows_encode _ _ _)))
    · exact List.forall_mem_singleton.mpr ((Registry.holds_encode hfinished).grows
        (Registry.grows_encode _ _ _))
  · refine List.forall_mem_cons.mpr ⟨.unknown _, List.forall_mem_cons.mpr ⟨?_, ?_⟩⟩
    · exact (Registry.holds_encode htaken).grows ((Registry.grows_encode _ _ _).trans
        (Registry.grows_encode _ _ _))
    · exact List.forall_mem_singleton.mpr (Registry.holds_encode hexpected)

/-- The bindings made for the equations have the same solutions as the equations. -/
theorem solves_iff_meets (run : system.Binds made) (θ : Assignment) :
    θ.Solves system.equations ↔ θ.Meets made :=
  Assignment.solves_iff_unifies_sides.trans (run.meets_pair_iff θ).symm

/-- A system that is solved has a run. -/
theorem exists_binds_of_solve (h : Equation.solve system.equations = .ok s) :
    ∃ made, system.Binds made ∧ s = ofList made :=
  Term.run_of_unify h

theorem solve_of_isGround (hs : Equation.solve system.equations = .ok s)
    (hterm : s.resolve (.unknown system.field) = .ok term) (hground : term.isGround) :
    system.solve style = .ok (.ok ⟨system.registry, term⟩) := by
  simp [solve, hs, hterm, hground]

theorem solve_of_not_isGround (hs : Equation.solve system.equations = .ok s)
    (hterm : s.resolve (.unknown system.field) = .ok term) (hopen : ¬ term.isGround) :
    system.solve style = .ok (.error ⟨.openFieldType style term, none, none⟩) := by
  simp [solve, hs, hterm, hopen]

theorem solve_of_cycle (hs : Equation.solve system.equations = .ok s) {cycle : Cycle}
    (hcycle : s.resolve (.unknown system.field) = .error cycle) :
    system.solve style = .error (.cyclic cycle) := by
  simp [solve, hs, hcycle]

/-- A system that clashes is reported with the clash, and with the equation at which it clashes. -/
theorem exists_solve_eq_of_clash {clash : Clash}
    (hclash : Equation.solve system.equations = .error (.clash clash)) (style : String) :
    ∃ place, Equation.ClashesFirst system.equations place clash ∧
      system.solve style =
        .ok (.error ⟨.noFieldType style, some clash, system.equations[place]?⟩) := by
  obtain ⟨place, hplace, hfirst⟩ := Equation.exists_firstConflictWithin_eq_found hclash
  have hconflict : Equation.firstConflict system.equations = .found place := hplace
  exact ⟨place, hfirst, by rw [solve, hclash, hconflict]⟩

theorem solve_of_tooDeep (hs : Equation.solve system.equations = .error .tooDeep) :
    system.solve style = .error .searchTooDeep := by
  simp [solve, hs]

theorem exists_solve_eq_ok_of_solve (h : system.solve style = .ok (.ok inference)) :
    ∃ s, Equation.solve system.equations = .ok s ∧
      s.resolve (.unknown system.field) = .ok inference.term ∧ inference.term.isGround ∧
      inference.registry = system.registry := by
  cases hs : Equation.solve system.equations with
  | error unsolved =>
      cases unsolved with
      | clash clash =>
          obtain ⟨place, -, heq⟩ := exists_solve_eq_of_clash hs style
          simp [heq] at h
      | tooDeep => simp [solve_of_tooDeep hs] at h
  | ok s =>
      cases hterm : s.resolve (.unknown system.field) with
      | error cycle => simp [solve_of_cycle hs hterm] at h
      | ok term =>
          by_cases hground : term.isGround
          · rw [solve_of_isGround hs hterm hground] at h
            cases h
            exact ⟨s, rfl, hterm, hground, rfl⟩
          · simp [solve_of_not_isGround hs hterm hground] at h

/-- The registry can render the field that was found. -/
theorem holds_term_of_solve {pair : StylePair} {consumer : TypeExpr}
    (hsystem : ofPair pair consumer = .ok system) (h : system.solve style = .ok (.ok inference)) :
    inference.registry.Holds inference.term := by
  obtain ⟨s, hs, hterm, -, hregistry⟩ := exists_solve_eq_ok_of_solve h
  obtain ⟨made, run, rfl⟩ := exists_binds_of_solve hs
  have hsides := holds_sides_of_ofPair hsystem
  have hmade := (Registry.closed_holds system.registry).bindings run (by simpa using hsides)
  rw [hregistry]
  exact (Registry.closed_holds system.registry).resolve (fun binding h => (hmade binding h).2)
    (.unknown _) hterm

theorem exists_fieldType_eq_ok {pair : StylePair} {consumer : TypeExpr}
    (hsystem : ofPair pair consumer = .ok system) (h : system.solve style = .ok (.ok inference)) :
    ∃ text, inference.fieldType = .ok text := by
  obtain ⟨-, -, -, hground, -⟩ := exists_solve_eq_ok_of_solve h
  obtain ⟨text, htext⟩ := Registry.exists_render_eq_ok (holds_term_of_solve hsystem h) hground
  refine ⟨text, ?_⟩
  rw [FieldInference.fieldType, htext]
  rfl

end FieldSystem

theorem outcome_reportField {style : String} {verdict : Determined FieldInference}
    (h : ∀ inference, verdict = .ok inference → ∃ text, inference.fieldType = .ok text) :
    (reportField style verdict).outcome = .ok () := by
  unfold reportField
  split
  · rename_i inference
    obtain ⟨text, htext⟩ := h inference rfl
    simp [htext, Except.bind]
  · simp
  · simp
  · simp

/-- Reporting a field changes nothing about it. -/
theorem outcome_inferFieldLogged (start finish : Option Signature) (consumer : TypeExpr)
    (style : String) :
    (inferFieldLogged start finish consumer style).outcome =
      inferField start finish consumer style := by
  simp only [inferFieldLogged, inferField, Logged.outcome_bind, Logged.outcome_ofExcept,
    Logged.outcome_pure, outcome_reportEncoding, reportEquations, outcome_sendDebug]
  simp only [bind, Except.bind]
  cases StylePair.check start finish style with
  | error obstacle => rfl
  | ok pair =>
      dsimp only
      cases hsystem : FieldSystem.ofPair pair consumer with
      | error fault => rfl
      | ok system =>
          simp only [Except.mapError]
          cases hverdict : system.solve style with
          | error obstacle => rfl
          | ok verdict =>
              have hreport : (reportField style verdict).outcome = .ok () := by
                refine outcome_reportField ?_
                rintro inference rfl
                exact FieldSystem.exists_fieldType_eq_ok hsystem hverdict
              simp only [hreport]

variable {start finish : Option Signature} {consumer : TypeExpr} {style : String}

theorem outcome_inferFieldLogged_of_ofPair {pair : StylePair} {system : FieldSystem}
    (hpair : StylePair.check start finish style = .ok pair)
    (hsystem : FieldSystem.ofPair pair consumer = .ok system) :
    (inferFieldLogged start finish consumer style).outcome = system.solve style := by
  rw [outcome_inferFieldLogged, inferField, hpair]
  simp only [bind, Except.bind, hsystem, Except.mapError]

/-- If the field resolves to a ground term, that term is inferred. -/
theorem outcome_eq_of_isGround {pair : StylePair} {system : FieldSystem} {s : Substitution}
    {term : Term} (hpair : StylePair.check start finish style = .ok pair)
    (hsystem : FieldSystem.ofPair pair consumer = .ok system)
    (hs : Equation.solve system.equations = .ok s)
    (hterm : s.resolve (.unknown system.field) = .ok term) (hground : term.isGround) :
    (inferFieldLogged start finish consumer style).outcome = .ok (.ok ⟨system.registry, term⟩) := by
  rw [outcome_inferFieldLogged_of_ofPair hpair hsystem,
    FieldSystem.solve_of_isGround hs hterm hground]

/-- An inference that ends without an obstacle has solved its equations. -/
theorem exists_solve_of_outcome_inferFieldLogged {verdict : Determined FieldInference}
    (h : (inferFieldLogged start finish consumer style).outcome = .ok verdict) :
    ∃ pair system, StylePair.check start finish style = .ok pair ∧
      FieldSystem.ofPair pair consumer = .ok system ∧ system.solve style = .ok verdict := by
  rw [outcome_inferFieldLogged, inferField] at h
  cases hpair : StylePair.check start finish style with
  | error obstacle => simp [hpair, bind, Except.bind] at h
  | ok pair =>
      cases hsystem : FieldSystem.ofPair pair consumer with
      | error fault => simp [hpair, hsystem, bind, Except.bind, Except.mapError] at h
      | ok system =>
          refine ⟨pair, system, rfl, hsystem, ?_⟩
          simpa [hpair, hsystem, bind, Except.bind, Except.mapError] using h

end BuilderFields
