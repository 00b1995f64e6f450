import BuilderFields.Proofs.Inference.Rendering
import BuilderFields.Proofs.Registry.Alike

/-!
# Modifiers do not affect each other

The modifiers of a field share its registry, and each leaves behind what it has stored, whether it fits the field or
not. A later modifier draws other unknowns then and finds other atoms, but they are alike: what it returns is encoded
alike, matched alike with a field that both registries have held all along, and its parameters are written with the
same texts.
-/

namespace BuilderFields

open Substitution

structure Indeterminate.Alike (it it' : Indeterminate) : Prop where
  reason_eq : it.reason = it'.reason
  equation_eq : it.equation = it'.equation
  clash_alike : ∃ c : Correspondence, c.KeepsNames ∧ Option.Rel (Clash.Alike c) it.clash it'.clash

def Determined.Alike {α : Type} : Determined α → Determined α → Prop :=
  Parallel Indeterminate.Alike Eq

namespace FieldInference

variable {inference inference' : FieldInference} {modifier : Signature}
  {overrides overrides' : Overrides} {names : List String} {s s' : Substitution}
  {fieldType : String} {g g' final final' : Registry}

theorem grows_parameterTypes_cons (name : String) (parameter : Parameter) (rest : List Parameter) :
    (g.encode overrides parameter.type).2.Grows
      (inference.parameterTypes name overrides s (parameter :: rest) g).2 := by
  rw [parameterTypes]
  generalize g.encode overrides parameter.type = outcome
  obtain ⟨encoded, g'⟩ := outcome
  cases encoded with
  | error fault => exact .refl g'
  | ok term =>
      dsimp only
      split
      · exact .refl g'
      split
      · split
        · exact .refl g'
        · exact inference.grows_parameterTypes name overrides s rest g'
      · split <;> exact .refl g'

theorem grows_modifierTypes_of_declare (hparameters : modifier.parameters ≠ [])
    (hdeclare : inference.registry.typeParameters modifier.typeParameters [] = (overrides, g)) :
    (g.encode overrides modifier.returnType).2.Grows (inference.modifierTypes modifier).2 := by
  unfold modifierTypes
  split
  · contradiction
  · rw [hdeclare]
    dsimp only
    generalize g.encode overrides modifier.returnType = outcome
    obtain ⟨encoded, g'⟩ := outcome
    cases encoded with
    | error fault => exact .refl g'
    | ok term =>
        dsimp only
        split
        · exact .refl g'
        · split <;> exact .refl g'
        · exact inference.grows_parameterTypes _ overrides _ _ g'

/-- Alike solutions give the parameters the same types, or leave the same parameter open, or meet the same fault. -/
theorem Fitting.parameterTypes_alike (h : Fitting inference s fieldType g)
    (h' : Fitting inference' s' fieldType g')
    (twins : Registry.Twins final final' overrides overrides' names)
    (hs : s.Alike twins.correspondence s') {parameters : List Parameter}
    (hgrows : (inference.parameterTypes modifier.name overrides s parameters g).2.Grows final)
    (hgrows' :
      (inference'.parameterTypes modifier.name overrides' s' parameters g').2.Grows final') :
    Parallel Eq Determined.Alike
      (inference.parameterTypes modifier.name overrides s parameters g).1
      (inference'.parameterTypes modifier.name overrides' s' parameters g').1 := by
  induction parameters generalizing g g' with
  | nil =>
      rw [parameterTypes, parameterTypes]
      exact .ok (.ok rfl)
  | cons parameter rest ih =>
      have hfinal := (grows_parameterTypes_cons modifier.name parameter rest).trans hgrows
      have hfinal' := (grows_parameterTypes_cons modifier.name parameter rest).trans hgrows'
      have hencode := twins.encode_alike parameter.type hfinal hfinal'
      rcases hfound : g.encode overrides parameter.type with ⟨encoded, g₁⟩
      rcases hfound' : g'.encode overrides' parameter.type with ⟨encoded', g₁'⟩
      rw [hfound] at hencode hfinal
      rw [hfound'] at hencode hfinal'
      have hlater := h.grows (Registry.grows_of_encode hfound)
      have hlater' := h'.grows (Registry.grows_of_encode hfound')
      cases hencode with
      | error hfault =>
          rw [parameterTypes_cons_of_error hfound, parameterTypes_cons_of_error hfound', hfault]
          exact .error rfl
      | @ok term term' hterm =>
          have happlied := hs.apply hterm
          by_cases hground : (s.apply term).isGround
          · have hground' : (s'.apply term').isGround := happlied.isGround_eq ▸ hground
            obtain ⟨text, htext⟩ := h.exists_render_eq_ok hfound hground
            obtain ⟨text', htext'⟩ := h'.exists_render_eq_ok hfound' hground'
            have hsame : text = text' := by
              have hrendered := twins.render_alike happlied hground
              rw [hfinal.render_eq _ htext, hfinal'.render_eq _ htext'] at hrendered
              exact Except.ok.inj hrendered
            rw [parameterTypes_cons_of_isGround hfound (h.resolve_eq term) hground htext] at hgrows ⊢
            rw [parameterTypes_cons_of_isGround hfound' (h'.resolve_eq term') hground' htext']
              at hgrows' ⊢
            refine (ih hlater hlater' hgrows hgrows').map fun types types' htypes => ?_
            exact Parallel.map htypes fun others others' hothers => by rw [hsame, hothers]
          · have hground' : ¬ (s'.apply term').isGround := happlied.isGround_eq ▸ hground
            rw [parameterTypes_cons_of_not_isGround hfound (h.resolve_eq term) hground
                hlater.rendered,
              parameterTypes_cons_of_not_isGround hfound' (h'.resolve_eq term') hground'
                hlater'.rendered]
            exact .ok (.error ⟨rfl, rfl, _, twins.keepsNames, .none⟩)

/-- Two fields of one type, over registries that have grown apart, take a modifier alike. -/
theorem Solved.modifierTypes_alike (h : inference.Solved) (h' : inference'.Solved)
    (hfieldType : inference.fieldType = .ok fieldType)
    (hfieldType' : inference'.fieldType = .ok fieldType) (hparameters : modifier.parameters ≠ [])
    (hdeclare : inference.registry.typeParameters modifier.typeParameters [] = (overrides, g))
    (hdeclare' : inference'.registry.typeParameters modifier.typeParameters [] = (overrides', g'))
    (twins : Registry.Twins (inference.modifierTypes modifier).2 (inference'.modifierTypes modifier).2
      overrides overrides' names)
    (hterm : Term.Alike twins.correspondence inference.term inference'.term) :
    Parallel Eq Determined.Alike (inference.modifierTypes modifier).1
      (inference'.modifierTypes modifier).1 := by
  have hencode := twins.encode_alike modifier.returnType
    (grows_modifierTypes_of_declare hparameters hdeclare)
    (grows_modifierTypes_of_declare hparameters hdeclare')
  rcases hreturn : g.encode overrides modifier.returnType with ⟨returned, g₁⟩
  rcases hreturn' : g'.encode overrides' modifier.returnType with ⟨returned', g₁'⟩
  rw [hreturn, hreturn'] at hencode
  have hgrows := (Registry.grows_of_typeParameters hdeclare).trans (Registry.grows_of_encode hreturn)
  have hgrows' :=
    (Registry.grows_of_typeParameters hdeclare').trans (Registry.grows_of_encode hreturn')
  cases hencode with
  | error hfault =>
      rw [modifierTypes_of_error hparameters hdeclare hreturn,
        modifierTypes_of_error hparameters hdeclare' hreturn', hfault]
      exact .error rfl
  | @ok pattern pattern' hpattern =>
      have hunify := Term.unify_alike hterm hpattern
      generalize hs : inference.term.unify pattern = outcome at hunify
      generalize hs' : inference'.term.unify pattern' = outcome' at hunify
      cases hunify with
      | ok halike =>
          have hfitting := h.fitting hfieldType hgrows (Registry.holds_of_encode hreturn) hs
          have hfitting' := h'.fitting hfieldType' hgrows' (Registry.holds_of_encode hreturn') hs'
          have heq := modifierTypes_of_unify hparameters hdeclare hreturn hs
          have heq' := modifierTypes_of_unify hparameters hdeclare' hreturn' hs'
          rw [heq, heq']
          exact hfitting.parameterTypes_alike hfitting' twins halike (heq ▸ .refl _) (heq' ▸ .refl _)
      | error hunsolved =>
          cases hunsolved with
          | tooDeep => exact absurd hs (Term.unify_ne_tooDeep h.isGround)
          | clash hclash =>
              rw [modifierTypes_of_clash hparameters hdeclare hreturn hs
                  (render_of_fieldType hfieldType hgrows),
                modifierTypes_of_clash hparameters hdeclare' hreturn' hs'
                  (render_of_fieldType hfieldType' hgrows')]
              exact .ok (.error ⟨rfl, rfl, _, twins.keepsNames, .some hclash⟩)

/-- A modifier comes to the same whatever has been inferred on the field before it. -/
theorem Solved.modifierTypes_after_alike (h : inference.Solved) (modifier : Signature)
    (earlier earlier' : List Signature) :
    Parallel Eq Determined.Alike ((inference.after earlier).modifierTypes modifier).1
      ((inference.after earlier').modifierTypes modifier).1 := by
  by_cases hparameters : modifier.parameters = []
  · rw [modifierTypes_of_takesNothing hparameters, modifierTypes_of_takesNothing hparameters]
    exact .error rfl
  obtain ⟨fieldType, hfieldType⟩ := h.exists_fieldType_eq_ok
  rcases hdeclare : (inference.after earlier).registry.typeParameters modifier.typeParameters []
    with ⟨overrides, g⟩
  rcases hdeclare' : (inference.after earlier').registry.typeParameters modifier.typeParameters []
    with ⟨overrides', g'⟩
  -- Atoms and unknowns are compared in the registries that the two calls leave behind.
  have twins : Registry.Twins ((inference.after earlier).modifierTypes modifier).2
      ((inference.after earlier').modifierTypes modifier).2 overrides overrides'
      modifier.typeParameters :=
    ⟨nodup_modifierTypes modifier (h.after earlier).nodup,
      nodup_modifierTypes modifier (h.after earlier').nodup,
      Registry.declares_of_typeParameters hdeclare, Registry.declares_of_typeParameters hdeclare'⟩
  refine (h.after earlier).modifierTypes_alike (h.after earlier')
    (fieldType_after hfieldType earlier) (fieldType_after hfieldType earlier') hparameters
    hdeclare hdeclare' twins ?_
  rw [term_after, term_after]
  exact twins.alike_self h.holds h.isGround
    ((inference.grows_after earlier).trans (grows_modifierTypes _ modifier))
    ((inference.grows_after earlier').trans (grows_modifierTypes _ modifier))

end FieldInference

end BuilderFields
