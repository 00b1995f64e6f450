import BuilderFields.Proofs.Inference.Passing
import BuilderFields.Proofs.Outcome

/-!
# A solved field always renders

A solved field is closed over its registry: it has no unknowns, and its atoms are the registry's own. Modifiers only
make the registry grow, so it stays closed whatever has been inferred on it, and with the field on one side the solver
binds unknowns to parts of the field alone. So whatever a call asks to be rendered is made of the registry's atoms, and
a call can only be stopped by the modifier itself: it takes no parameters, or one of its types has no term.
-/

namespace BuilderFields

open Substitution

namespace Registry

section Pairs

variable {g g' : Registry} {overrides : Overrides} {type : TypeExpr}

theorem grows_of_typeParameters {names : List String} {known : Overrides}
    (h : g.typeParameters names known = (overrides, g')) : g.Grows g' := by
  simpa [h] using g.grows_typeParameters names known

theorem declares_of_typeParameters {names : List String}
    (h : g.typeParameters names [] = (overrides, g')) : overrides.Declares names := by
  simpa [h] using g.declares_typeParameters names

theorem grows_of_encode {encoded : Except EncodingFault Term}
    (h : g.encode overrides type = (encoded, g')) : g.Grows g' := by
  simpa [h] using g.grows_encode overrides type

theorem holds_of_encode {term : Term} (h : g.encode overrides type = (.ok term, g')) :
    g'.Holds term := by
  have hholds := holds_encode (congrArg Prod.fst h)
  rwa [h] at hholds

end Pairs

theorem nodup_typeParameters {g : Registry} (names : List String) (known : Overrides)
    (h : g.texts.Nodup) : (g.typeParameters names known).2.texts.Nodup := by
  rw [typeParameters_eq]
  exact h

theorem nodup_encode {g : Registry} (overrides : Overrides) (type : TypeExpr)
    (h : g.texts.Nodup) : (g.encode overrides type).2.texts.Nodup :=
  encode_of_intern nodup_intern overrides type h

end Registry

theorem FieldSystem.nodup_texts_of_ofPair {pair : StylePair} {consumer : TypeExpr}
    {system : FieldSystem} (h : FieldSystem.ofPair pair consumer = .ok system) :
    system.registry.texts.Nodup := by
  have hstart := Registry.nodup_typeParameters pair.start.typeParameters []
    (g := ((Registry.fresh 0).freshUnknown "F").2) List.nodup_nil
  have hfinish := Registry.nodup_typeParameters pair.finish.typeParameters [] hstart
  unfold ofPair at h
  dsimp only at h
  split at h
  · cases h
  split at h
  · cases h
  split at h
  · cases h
  split at h
  · cases h
  cases h
  exact Registry.nodup_encode _ _ (Registry.nodup_encode _ _ (Registry.nodup_encode _ _
    (Registry.nodup_encode _ _ hfinish)))

namespace FieldInference

structure Solved (inference : FieldInference) : Prop where
  isGround : inference.term.isGround
  holds : inference.registry.Holds inference.term
  nodup : inference.registry.texts.Nodup

def next (inference : FieldInference) (modifier : Signature) : FieldInference where
  registry := (inference.modifierTypesLogged modifier).2
  term := inference.term

def after (inference : FieldInference) (modifiers : List Signature) : FieldInference :=
  modifiers.foldl next inference

variable {inference : FieldInference} {modifier : Signature} {overrides : Overrides}
  {s : Substitution} {fieldType : String} {g g' : Registry}

/-! ### What one modifier leaves behind -/

theorem nodup_modifierTypes (modifier : Signature) (h : inference.registry.texts.Nodup) :
    (inference.modifierTypes modifier).2.texts.Nodup :=
  modifierTypes_of_calls (P := fun g => g.texts.Nodup)
    (fun _ names => Registry.nodup_typeParameters names [])
    (fun _ overrides type => Registry.nodup_encode overrides type) modifier h

theorem Solved.next (h : inference.Solved) (modifier : Signature) :
    (inference.next modifier).Solved where
  isGround := h.isGround
  holds := h.holds.grows (inference.grows_modifierTypes modifier)
  nodup := nodup_modifierTypes modifier h.nodup

/-- A solved field stays solved, whatever modifiers are typed. -/
theorem Solved.after (h : inference.Solved) (modifiers : List Signature) :
    (inference.after modifiers).Solved := by
  induction modifiers generalizing inference with
  | nil => exact h
  | cons modifier rest ih => exact ih (h.next modifier)

theorem grows_after (inference : FieldInference) (modifiers : List Signature) :
    inference.registry.Grows (inference.after modifiers).registry := by
  induction modifiers generalizing inference with
  | nil => exact .refl _
  | cons modifier rest ih =>
      exact (inference.grows_modifierTypes modifier).trans (ih (inference.next modifier))

/-- Typing modifiers does not touch the field. -/
theorem term_after (inference : FieldInference) (modifiers : List Signature) :
    (inference.after modifiers).term = inference.term := by
  induction modifiers generalizing inference with
  | nil => rfl
  | cons modifier rest ih => exact ih _

/-- A solved field has a type that can be written. -/
theorem Solved.exists_fieldType_eq_ok (h : inference.Solved) :
    ∃ text, inference.fieldType = .ok text := by
  obtain ⟨text, htext⟩ := Registry.exists_render_eq_ok h.holds h.isGround
  exact ⟨text, by rw [fieldType, htext]; rfl⟩

theorem render_of_fieldType (hfieldType : inference.fieldType = .ok fieldType)
    (hgrows : inference.registry.Grows g) : g.render inference.term = .ok fieldType := by
  rw [FieldInference.fieldType, mapError_eq_ok_iff] at hfieldType
  exact hgrows.render_eq _ hfieldType

/-- The field type reads the same after any modifiers. -/
theorem fieldType_after (hfieldType : inference.fieldType = .ok fieldType)
    (modifiers : List Signature) : (inference.after modifiers).fieldType = .ok fieldType := by
  have hlater := render_of_fieldType hfieldType (inference.grows_after modifiers)
  rw [FieldInference.fieldType, term_after, hlater]
  rfl

/-! ### How a modifier can be stopped -/

-- What is known of a solution once what a modifier returns is matched with the field, and stays known while the
-- registry grows.
structure Fitting (inference : FieldInference) (s : Substitution) (fieldType : String)
    (g : Registry) : Prop where
  resolve_eq : ∀ term, s.resolve term = .ok (s.apply term)
  apply : ∀ g', g.Grows g' → ∀ term, g'.Holds term → g'.Holds (s.apply term)
  rendered : g.render inference.term = .ok fieldType

theorem Fitting.grows (h : Fitting inference s fieldType g) (hgrows : g.Grows g') :
    Fitting inference s fieldType g' where
  resolve_eq := h.resolve_eq
  apply := fun _ hlater => h.apply _ (hgrows.trans hlater)
  rendered := hgrows.render_eq _ h.rendered

/-- A parameter that the field settles can be written. -/
theorem Fitting.exists_render_eq_ok (h : Fitting inference s fieldType g) {type : TypeExpr}
    {term : Term} (hencode : g.encode overrides type = (.ok term, g'))
    (hground : (s.apply term).isGround) : ∃ text, g'.render (s.apply term) = .ok text :=
  Registry.exists_render_eq_ok
    (h.apply g' (Registry.grows_of_encode hencode) term (Registry.holds_of_encode hencode)) hground

/-- The solver binds unknowns to parts of the field alone, and these are closed. -/
theorem Solved.fitting (h : inference.Solved) (hfieldType : inference.fieldType = .ok fieldType)
    (hgrows : inference.registry.Grows g) {pattern : Term} (hpattern : g.Holds pattern)
    (hs : inference.term.unify pattern = .ok s) : Fitting inference s fieldType g := by
  obtain ⟨made, run, rfl⟩ := Term.run_of_unify hs
  have hground := (run.matches (by simpa using h.isGround)).1
  have hsides : g.Holds inference.term ∧ g.Holds pattern := ⟨h.holds.grows hgrows, hpattern⟩
  have hmade := (Registry.closed_holds g).bindings run (by simpa using hsides)
  refine ⟨resolve_eq_ok_apply hground, fun g' hlater term => ?_, render_of_fieldType hfieldType hgrows⟩
  exact (Registry.closed_holds g').apply fun binding hbinding =>
    (hmade binding hbinding).2.grows hlater

/-- Nothing but a type without a term stops the parameters of a modifier that fits. -/
theorem Fitting.exists_of_parameterTypes_eq_error (h : Fitting inference s fieldType g)
    {parameters : List Parameter} {obstacle : Obstacle}
    (herror : (inference.parameterTypes modifier.name overrides s parameters g).1 =
      .error obstacle) :
    ∃ fault, obstacle = .ofEncoding fault := by
  induction parameters generalizing g with
  | nil => simp [parameterTypes] at herror
  | cons parameter rest ih =>
      rcases hencode : g.encode overrides parameter.type with ⟨encoded, g'⟩
      have hlater := h.grows (Registry.grows_of_encode hencode)
      cases encoded with
      | error fault =>
          rw [parameterTypes_cons_of_error hencode] at herror
          cases herror
          exact ⟨fault, rfl⟩
      | ok term =>
          by_cases hclosed : (s.apply term).isGround
          · obtain ⟨text, htext⟩ := h.exists_render_eq_ok hencode hclosed
            rw [parameterTypes_cons_of_isGround hencode (h.resolve_eq term) hclosed htext] at herror
            refine ih hlater ?_
            cases hothers : (inference.parameterTypes modifier.name overrides s rest g').1 with
            | error other => simpa [hothers, Except.map] using herror
            | ok types => simp [hothers, Except.map] at herror
          · rw [parameterTypes_cons_of_not_isGround hencode (h.resolve_eq term) hclosed
              hlater.rendered] at herror
            cases herror

/-- A modifier of a solved field is stopped by its own shape, or by a type of its own that has no term. -/
theorem Solved.obstacle_cases (h : inference.Solved) {obstacle : Obstacle}
    (herror : (inference.modifierTypes modifier).1 = .error obstacle) :
    obstacle = .malformedStyle modifier.name .takesNothing ∨
      ∃ fault, obstacle = .ofEncoding fault := by
  obtain ⟨fieldType, hfieldType⟩ := h.exists_fieldType_eq_ok
  by_cases hparameters : modifier.parameters = []
  · rw [modifierTypes_of_takesNothing hparameters] at herror
    cases herror
    exact Or.inl rfl
  refine Or.inr ?_
  rcases hdeclare : inference.registry.typeParameters modifier.typeParameters [] with
    ⟨overrides, g⟩
  rcases hreturn : g.encode overrides modifier.returnType with ⟨returned, g'⟩
  have hgrows := (Registry.grows_of_typeParameters hdeclare).trans (Registry.grows_of_encode hreturn)
  cases returned with
  | error fault =>
      rw [modifierTypes_of_error hparameters hdeclare hreturn] at herror
      cases herror
      exact ⟨fault, rfl⟩
  | ok pattern =>
      cases hunify : inference.term.unify pattern with
      | error unsolved =>
          cases unsolved with
          | tooDeep => exact absurd hunify (Term.unify_ne_tooDeep h.isGround)
          | clash clash =>
              rw [modifierTypes_of_clash hparameters hdeclare hreturn hunify
                (render_of_fieldType hfieldType hgrows)] at herror
              cases herror
      | ok s =>
          rw [modifierTypes_of_unify hparameters hdeclare hreturn hunify] at herror
          have hfitting := h.fitting hfieldType hgrows (Registry.holds_of_encode hreturn) hunify
          exact hfitting.exists_of_parameterTypes_eq_error herror

end FieldInference

section Outcome

variable {start finish : Option Signature} {consumer : TypeExpr} {style : String}
  {inference : FieldInference}

/-- An inferred field is solved. -/
theorem solved_of_outcome
    (h : (inferFieldLogged start finish consumer style).outcome = .ok (.ok inference)) :
    inference.Solved := by
  obtain ⟨pair, system, -, hsystem, hsolve⟩ := exists_solve_of_outcome_inferFieldLogged h
  obtain ⟨-, -, -, hground, hregistry⟩ := FieldSystem.exists_solve_eq_ok_of_solve hsolve
  exact ⟨hground, FieldSystem.holds_term_of_solve hsystem hsolve,
    hregistry ▸ FieldSystem.nodup_texts_of_ofPair hsystem⟩

/-- **A solved field always renders.** Its type has one text, whatever modifiers have been inferred on it, and none of
them is stopped by a term that cannot be rendered. -/
theorem renders_throughout
    (h : (inferFieldLogged start finish consumer style).outcome = .ok (.ok inference)) :
    ∃ text, ∀ earlier : List Signature,
      (inference.after earlier).fieldType = .ok text ∧
        ∀ (modifier : Signature) (fault : RenderingFault),
          ((inference.after earlier).modifierTypesLogged modifier).1.outcome ≠
            .error (.unrenderable fault) := by
  have hsolved := solved_of_outcome h
  obtain ⟨text, htext⟩ := hsolved.exists_fieldType_eq_ok
  refine ⟨text, fun earlier => ⟨FieldInference.fieldType_after htext earlier, ?_⟩⟩
  intro modifier fault herror
  rw [outcome_modifierTypesLogged] at herror
  rcases (hsolved.after earlier).obstacle_cases herror with hshape | ⟨encodingFault, hencoding⟩
  · cases hshape
  · cases encodingFault <;> cases hencoding

end Outcome

/-! ### `<T> Acc<T> addEach(Acc<T> acc, List<?> items)`, which has no terms for its types, and then `add` -/

namespace Plain

def addEach : Signature :=
  ⟨"addEach", ["T"], [⟨"acc", .declared "Acc" [.typeVar "T"]⟩,
    ⟨"items", .declared "List" [.wildcard .upper]⟩], .declared "Acc" [.typeVar "T"]⟩

theorem renders_throughout_addEach :
    (inferFieldLogged (some start) (some finish) consumer anonymousStyle).outcome =
        .ok (.ok inferred) ∧
      (∃ type, (inferred.modifierTypesLogged addEach).1.outcome =
        .error (.unsupported type none)) ∧
      (inferred.after [addEach, add]).fieldType = .ok "Acc<String>" ∧
      ∀ fault, ((inferred.after [addEach]).modifierTypesLogged add).1.outcome ≠
        .error (.unrenderable fault) := by
  obtain ⟨text, hthroughout⟩ := renders_throughout outcome_eq
  have htext : text = "Acc<String>" := by
    have hfirst : Except.ok text = (.ok "Acc<String>" : Except Obstacle String) :=
      (hthroughout []).1.symm.trans rfl
    exact Except.ok.inj hfirst
  refine ⟨outcome_eq, ⟨_, by with_unfolding_all rfl⟩, ?_, (hthroughout [addEach]).2 add⟩
  exact htext ▸ (hthroughout [addEach, add]).1

end Plain

end BuilderFields
