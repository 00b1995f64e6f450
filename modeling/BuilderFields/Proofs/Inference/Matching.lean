import BuilderFields.Proofs.Inference.Soundness
import BuilderFields.Proofs.Registry.Instance
import BuilderFields.Proofs.Term.Matching

/-!
# Modifiers are matched exactly

What a modifier returns is matched with the field's type, which has no unknowns, so nothing goes wrong on the way:
there is a clash exactly when no replacement of the modifier's type parameters gives the field's type. Otherwise the
replacement is unique as far as the return type goes, and the parameters after the field are instances under it, up
to the first one that mentions a type parameter that the return type does not.
-/

namespace BuilderFields

open Substitution

/-- The type mentions a type parameter of the modifier that what it returns does not mention. -/
def Signature.LeavesOpen (modifier : Signature) (type : TypeExpr) : Prop :=
  ∃ name ∈ type.typeVars, name ∈ modifier.typeParameters ∧ name ∉ modifier.returnType.typeVars

instance (modifier : Signature) (type : TypeExpr) : Decidable (modifier.LeavesOpen type) :=
  inferInstanceAs (Decidable (∃ name ∈ type.typeVars, _ ∧ _))

def Signature.firstOpen? (modifier : Signature) : Option Parameter :=
  modifier.parameters.tail.find? fun parameter => modifier.LeavesOpen parameter.type

namespace FieldInference

-- The replacement gives terms without unknowns to the modifier's type parameters, and with them it returns the
-- field.
structure Matches (inference : FieldInference) (modifier : Signature) (g : Registry)
    (ρ : Replacement) : Prop where
  own : ∀ name, (ρ name).isSome ↔ name ∈ modifier.typeParameters
  isGround : ∀ name term, ρ name = some term → term.isGround
  returns : g.instantiate ρ modifier.returnType = inference.term

/-- How a modifier has to end if its types are those of the replacement that matches, with the registry that is left
behind. -/
structure MatchedExactly (inference : FieldInference) (modifier : Signature)
    (outcome : Except Obstacle (Determined (List String))) (after : Registry) : Prop where
  returns : ∃ verdict, outcome = .ok verdict
  mismatch : (∃ it, outcome = .ok (.error it) ∧ it.clash.isSome) ↔
    ¬ ∃ ρ, inference.Matches modifier after ρ
  leftOpen : (∃ it, outcome = .ok (.error it) ∧ it.clash = none) ↔
    (∃ ρ, inference.Matches modifier after ρ) ∧ modifier.firstOpen?.isSome
  named : ∀ it, outcome = .ok (.error it) → it.clash = none → ∃ parameter fieldType,
    modifier.firstOpen? = some parameter ∧ inference.fieldType = .ok fieldType ∧
      it.reason = .openParameter parameter.name modifier.name fieldType
  types : ∀ ρ, inference.Matches modifier after ρ → modifier.firstOpen? = none →
    ∃ types, outcome = .ok (.ok types) ∧
      types.map .ok = modifier.parameters.tail.map fun parameter =>
        after.render (after.instantiate ρ parameter.type)
  unique : ∀ ρ ρ', inference.Matches modifier after ρ → inference.Matches modifier after ρ' →
    ∀ name ∈ modifier.returnType.typeVars, ρ name = ρ' name

/-! ### The parameters, one after the other -/

section Parameters

variable {inference : FieldInference} {modifier : Signature} {overrides : Overrides}
  {s : Substitution} {g g' : Registry} {pattern term : Term} {θ : Assignment} {fieldType : String}
  {parameter : Parameter} {rest : List Parameter}

structure Matching (inference : FieldInference) (modifier : Signature) (overrides : Overrides)
    (s : Substitution) (pattern : Term) (θ : Assignment) (fieldType : String) (g : Registry) :
    Prop where
  declares : overrides.Declares modifier.typeParameters
  encodable : modifier.returnType.Encodable
  pattern_eq : ∀ g', g.Grows g' →
    g'.instantiate overrides.replacement modifier.returnType = pattern
  finds : s.Finds pattern θ
  value_eq : θ.value pattern = inference.term
  holds : g.Holds inference.term
  rendered : g.render inference.term = .ok fieldType

/-- A match lasts as the registry grows. -/
theorem Matching.grows
    (h : Matching inference modifier overrides s pattern θ fieldType g) (hgrows : g.Grows g') :
    Matching inference modifier overrides s pattern θ fieldType g' where
  declares := h.declares
  encodable := h.encodable
  pattern_eq := fun _ hlater => h.pattern_eq _ (hgrows.trans hlater)
  finds := h.finds
  value_eq := h.value_eq
  holds := h.holds.grows hgrows
  rendered := hgrows.render_eq _ h.rendered

/-- The parameters change the registry by encoding their types alone, however they end. -/
theorem parameterTypes_of_encode {P : Registry → Prop}
    (hencode : ∀ g type, P g → P (g.encode overrides type).2) (name : String)
    (parameters : List Parameter) (h : P g) :
    P (inference.parameterTypes name overrides s parameters g).2 := by
  induction parameters generalizing g with
  | nil => exact h
  | cons parameter rest ih =>
      have hencoded := hencode g parameter.type h
      rw [parameterTypes]
      generalize g.encode overrides parameter.type = outcome at hencoded ⊢
      obtain ⟨encoded, g'⟩ := outcome
      cases encoded with
      | error fault => exact hencoded
      | ok term =>
          dsimp only
          split
          · exact hencoded
          split
          · split
            · exact hencoded
            · exact ih hencoded
          · split <;> exact hencoded

theorem grows_parameterTypes (inference : FieldInference) (modifier : String)
    (overrides : Overrides) (s : Substitution) (parameters : List Parameter) (g : Registry) :
    g.Grows (inference.parameterTypes modifier overrides s parameters g).2 :=
  parameterTypes_of_encode (fun g' type h => h.trans (g'.grows_encode overrides type)) modifier
    parameters (.refl g)

theorem parameterTypes_cons_of_error {fault : EncodingFault}
    (hencode : g.encode overrides parameter.type = (.error fault, g')) :
    inference.parameterTypes modifier.name overrides s (parameter :: rest) g =
      (.error (.ofEncoding fault), g') := by
  rw [parameterTypes, hencode]

theorem parameterTypes_cons_of_isGround {text : String}
    (hencode : g.encode overrides parameter.type = (.ok term, g'))
    (hresolve : s.resolve term = .ok (s.apply term)) (hground : (s.apply term).isGround)
    (htext : g'.render (s.apply term) = .ok text) :
    inference.parameterTypes modifier.name overrides s (parameter :: rest) g =
      let others := inference.parameterTypes modifier.name overrides s rest g'
      (others.1.map fun types => types.map fun types => text :: types, others.2) := by
  rw [parameterTypes, hencode]
  simp [hresolve, hground, htext]

theorem parameterTypes_cons_of_not_isGround
    (hencode : g.encode overrides parameter.type = (.ok term, g'))
    (hresolve : s.resolve term = .ok (s.apply term)) (hopen : ¬ (s.apply term).isGround)
    (hfieldType : g'.render inference.term = .ok fieldType) :
    inference.parameterTypes modifier.name overrides s (parameter :: rest) g =
      (.ok (.error ⟨.openParameter parameter.name modifier.name fieldType, none, none⟩), g') := by
  rw [parameterTypes, hencode]
  simp [hresolve, hopen, hfieldType]

/-- A match settles exactly the types that the modifier does not leave open. -/
theorem Matching.isGround_apply_iff
    (h : Matching inference modifier overrides s pattern θ fieldType g) {type : TypeExpr}
    (htype : type.Encodable) :
    (s.apply (g.instantiate overrides.replacement type)).isGround ↔ ¬ modifier.LeavesOpen type := by
  rw [h.finds.isGround_iff, ← h.pattern_eq g (.refl g),
    Registry.forall_occurrences_iff h.declares htype h.encodable]
  simp only [Signature.LeavesOpen]
  push Not
  rfl

/-- A parameter that is not left open is rendered as its instance. -/
theorem Matching.exists_render_eq_ok
    (h : Matching inference modifier overrides s pattern θ fieldType g)
    (hheld : g.Holds term) (hground : (s.apply term).isGround) :
    ∃ text, g.render (s.apply term) = .ok text := by
  refine Registry.exists_render_eq_ok ?_ hground
  have hvalues := Registry.Holds.of_value (h.value_eq ▸ h.holds)
  rw [h.finds.apply_eq term hground]
  exact hheld.value fun u hu => hvalues u ((h.finds.isGround_iff term).mp hground u hu)

/-- The types are the instances, one for each parameter, unless one of the parameters is left open. -/
theorem Matching.parameterTypes_eq {parameters : List Parameter}
    (h : Matching inference modifier overrides s pattern θ fieldType g)
    (hparameters : ∀ parameter ∈ parameters, parameter.type.Encodable) :
    let outcome := inference.parameterTypes modifier.name overrides s parameters g
    (∀ parameter, (parameters.find? fun parameter => modifier.LeavesOpen parameter.type) =
        some parameter →
      outcome.1 =
        .ok (.error ⟨.openParameter parameter.name modifier.name fieldType, none, none⟩)) ∧
    ((parameters.find? fun parameter => modifier.LeavesOpen parameter.type) = none →
      ∃ types, outcome.1 = .ok (.ok types) ∧ ∀ g', outcome.2.Grows g' →
        types.map .ok = parameters.map fun parameter => g'.render
          (g'.instantiate (fun name => (overrides.replacement name).map θ.value)
            parameter.type)) := by
  -- Along the parameters: the matching outlives what each of them adds to the registry.
  induction parameters generalizing g with
  | nil =>
      refine ⟨fun parameter hfirst => by simp at hfirst, fun _ => ⟨[], ?_, fun _ _ => rfl⟩⟩
      rw [parameterTypes]
  | cons parameter rest ih =>
      rw [List.forall_mem_cons] at hparameters
      obtain ⟨htype, hrest⟩ := hparameters
      obtain ⟨term, hterm, hinstance⟩ := Registry.encode_eq_instantiate overrides htype g
      have hheld := Registry.holds_encode hterm
      have hlater := h.grows (g.grows_encode overrides parameter.type)
      obtain ⟨g₁, hg₁⟩ : ∃ g₁, (g.encode overrides parameter.type).2 = g₁ := ⟨_, rfl⟩
      have hencode : g.encode overrides parameter.type = (.ok term, g₁) := Prod.ext hterm hg₁
      rw [hg₁] at hinstance hheld hlater
      have hresolve := h.finds.resolve_eq term
      have hiff := hlater.isGround_apply_iff htype
      rw [hinstance g₁ (.refl g₁)] at hiff
      dsimp only
      rw [List.find?_cons]
      by_cases hopen : modifier.LeavesOpen parameter.type
      · have hnot : ¬ (s.apply term).isGround := fun hground => hiff.mp hground hopen
        rw [parameterTypes_cons_of_not_isGround hencode hresolve hnot hlater.rendered]
        simp [hopen]
      · have hground := hiff.mpr hopen
        obtain ⟨text, htext⟩ := hlater.exists_render_eq_ok hheld hground
        rw [parameterTypes_cons_of_isGround hencode hresolve hground htext]
        obtain ⟨hfirst, hnone⟩ := ih hlater hrest
        simp only [hopen, decide_false]
        refine ⟨fun other hother => ?_, fun hall => ?_⟩
        · rw [hfirst other hother]
          rfl
        · obtain ⟨types, htypes, hrendered⟩ := hnone hall
          refine ⟨text :: types, by rw [htypes]; rfl, fun g' hgrows => ?_⟩
          have hgrows₁ :=
            (inference.grows_parameterTypes modifier.name overrides s rest g₁).trans hgrows
          have hvalue := h.finds.apply_eq term hground
          have hsame : g'.instantiate (fun name => (overrides.replacement name).map θ.value)
              parameter.type = s.apply term := by
            rw [hvalue, ← hinstance g' hgrows₁, Registry.value_instantiate θ htype]
          rw [List.map_cons, List.map_cons, hrendered g' hgrows, hsame, hgrows₁.render_eq _ htext]

end Parameters

/-! ### The three ways to end -/

section Modifier

variable {inference : FieldInference} {modifier : Signature} {overrides : Overrides}
  {s : Substitution} {g g' : Registry} {pattern : Term} {θ : Assignment} {fieldType : String}

theorem modifierTypes_of_takesNothing (hparameters : modifier.parameters = []) :
    inference.modifierTypes modifier =
      (.error (.malformedStyle modifier.name .takesNothing), inference.registry) := by
  unfold modifierTypes
  split
  · rfl
  · simp_all

theorem modifierTypes_of_error {fault : EncodingFault} (hparameters : modifier.parameters ≠ [])
    (hdeclare : inference.registry.typeParameters modifier.typeParameters [] = (overrides, g))
    (hreturn : g.encode overrides modifier.returnType = (.error fault, g')) :
    inference.modifierTypes modifier = (.error (.ofEncoding fault), g') := by
  unfold modifierTypes
  split
  · contradiction
  · simp [hdeclare, hreturn]

theorem modifierTypes_of_clash {clash : Clash} (hparameters : modifier.parameters ≠ [])
    (hdeclare : inference.registry.typeParameters modifier.typeParameters [] = (overrides, g))
    (hreturn : g.encode overrides modifier.returnType = (.ok pattern, g'))
    (hclash : inference.term.unify pattern = .error (.clash clash))
    (hfieldType : g'.render inference.term = .ok fieldType) :
    inference.modifierTypes modifier =
      (.ok (.error ⟨.returnTypeMismatch modifier.name fieldType, some clash, none⟩), g') := by
  unfold modifierTypes
  split
  · contradiction
  · simp [hdeclare, hreturn, hclash, hfieldType]

theorem modifierTypes_of_unify (hparameters : modifier.parameters ≠ [])
    (hdeclare : inference.registry.typeParameters modifier.typeParameters [] = (overrides, g))
    (hreturn : g.encode overrides modifier.returnType = (.ok pattern, g'))
    (hs : inference.term.unify pattern = .ok s) :
    inference.modifierTypes modifier =
      inference.parameterTypes modifier.name overrides s modifier.parameters.tail g' := by
  unfold modifierTypes
  split
  · contradiction
  · rename_i receiver others heq
    simp [hdeclare, hreturn, hs, heq]

/-- An assignment that makes the pattern equal to the field gives a match. -/
theorem matches_of_value_eq (hdeclares : overrides.Declares modifier.typeParameters)
    (hreturn : modifier.returnType.Encodable)
    (hpattern : g.instantiate overrides.replacement modifier.returnType = pattern)
    (hθ : θ.IsGround) (hvalue : θ.value pattern = inference.term) :
    inference.Matches modifier g fun name => (overrides.replacement name).map θ.value where
  own := by
    intro name
    rw [Option.isSome_map, hdeclares.isSome_replacement_iff]
  isGround := by
    intro name term hterm
    obtain ⟨original, -, rfl⟩ := Option.map_eq_some_iff.mp hterm
    exact Assignment.isGround_value hθ original
  returns := by
    rw [← Registry.value_instantiate θ hreturn, hpattern, hvalue]

/-- A replacement that matches is an assignment that solves the equation of the return type. -/
theorem Matches.exists_value_eq {ρ : Replacement} (h : inference.Matches modifier g ρ)
    (hdeclares : overrides.Declares modifier.typeParameters)
    (hreturn : modifier.returnType.Encodable)
    (hpattern : g.instantiate overrides.replacement modifier.returnType = pattern) :
    ∃ θ : Assignment, θ.IsGround ∧ θ.value pattern = inference.term := by
  obtain ⟨θ, hθ, rfl⟩ := hdeclares.exists_assignment h.own h.isGround
  refine ⟨θ, hθ, ?_⟩
  rw [← hpattern, Registry.value_instantiate θ hreturn, h.returns]

/-- Two matches agree on every name of the return type. -/
theorem Matches.eq_of_mem (hreturn : modifier.returnType.Encodable) {ρ ρ' : Replacement}
    (h : inference.Matches modifier g ρ) (h' : inference.Matches modifier g ρ') :
    ∀ name ∈ modifier.returnType.typeVars, ρ name = ρ' name := by
  have hsame : ∀ name, (ρ name).isSome ↔ (ρ' name).isSome := fun name =>
    (h.own name).trans (h'.own name).symm
  exact (Registry.instantiate_eq_instantiate_iff hsame hreturn).mp (h.returns.trans h'.returns.symm)

/-- What is not left open is the same under all replacements that match. -/
theorem Matches.instantiate_eq (hreturn : modifier.returnType.Encodable) {ρ ρ' : Replacement}
    (h : inference.Matches modifier g ρ) (h' : inference.Matches modifier g ρ') {type : TypeExpr}
    (htype : type.Encodable) (hopen : ¬ modifier.LeavesOpen type) :
    g.instantiate ρ type = g.instantiate ρ' type := by
  have hsame : ∀ name, (ρ name).isSome ↔ (ρ' name).isSome := fun name =>
    (h.own name).trans (h'.own name).symm
  refine (Registry.instantiate_eq_instantiate_iff hsame htype).mpr fun name hname => ?_
  by_cases hown : name ∈ modifier.typeParameters
  · have hmem : name ∈ modifier.returnType.typeVars := by
      by_contra hnot
      exact hopen ⟨name, hname, hown, hnot⟩
    exact h.eq_of_mem hreturn h' name hmem
  · have hfree : ρ name = none := by simpa using mt (h.own name).mp hown
    have hfree' : ρ' name = none := by simpa using mt (h'.own name).mp hown
    rw [hfree, hfree']

/-- Without a match, a mismatch is the right report. -/
theorem matchedExactly_of_clash {clash : Clash} (hnone : ¬ ∃ ρ, inference.Matches modifier g ρ) :
    inference.MatchedExactly modifier
      (.ok (.error ⟨.returnTypeMismatch modifier.name fieldType, some clash, none⟩)) g where
  returns := ⟨_, rfl⟩
  mismatch := by simpa using hnone
  leftOpen := by
    constructor
    · rintro ⟨it, hit, hclash⟩
      cases hit
      cases hclash
    · exact fun h => absurd h.1 hnone
  named := by
    rintro it hit hclash
    cases hit
    cases hclash
  types := fun ρ hρ => absurd ⟨ρ, hρ⟩ hnone
  unique := fun ρ _ hρ => absurd ⟨ρ, hρ⟩ hnone

/-- With a match the parameters are typed, up to the first one that is left open. -/
theorem matchedExactly_of_matching
    (h : Matching inference modifier overrides s pattern θ fieldType g) (hθ : θ.IsGround)
    (hfieldType : inference.fieldType = .ok fieldType)
    (hothers : ∀ parameter ∈ modifier.parameters.tail, parameter.type.Encodable) :
    let outcome :=
      inference.parameterTypes modifier.name overrides s modifier.parameters.tail g
    inference.MatchedExactly modifier outcome.1 outcome.2 := by
  obtain ⟨hfirst, hnone⟩ := h.parameterTypes_eq hothers
  have hgrows :=
    inference.grows_parameterTypes modifier.name overrides s modifier.parameters.tail g
  generalize inference.parameterTypes modifier.name overrides s modifier.parameters.tail g = outcome
    at hfirst hnone hgrows ⊢
  have hmatches := matches_of_value_eq h.declares h.encodable (h.pattern_eq _ hgrows) hθ h.value_eq
  have hunique : ∀ ρ ρ', inference.Matches modifier outcome.2 ρ →
      inference.Matches modifier outcome.2 ρ' →
      ∀ name ∈ modifier.returnType.typeVars, ρ name = ρ' name :=
    fun _ _ hρ hρ' => hρ.eq_of_mem h.encodable hρ'
  cases hopen : modifier.firstOpen? with
  | some parameter =>
      have houtcome := hfirst parameter hopen
      refine ⟨⟨_, houtcome⟩, ?_, ?_, ?_, fun _ _ hall => ?_, hunique⟩
      · simp only [houtcome, Except.ok.injEq, Except.error.injEq, exists_eq_left', Option.isSome_none]
        simpa using ⟨_, hmatches⟩
      · simp only [houtcome, Except.ok.injEq, Except.error.injEq, exists_eq_left', hopen,
          Option.isSome_some, true_iff, and_true]
        exact ⟨_, hmatches⟩
      · intro it hit _
        rw [houtcome] at hit
        cases hit
        exact ⟨parameter, fieldType, hopen, hfieldType, rfl⟩
      · rw [hopen] at hall
        cases hall
  | none =>
      obtain ⟨types, houtcome, hrendered⟩ := hnone hopen
      have hno : ∀ it, outcome.1 ≠ .ok (.error it) := fun it hit => by
        rw [houtcome] at hit
        cases hit
      refine ⟨⟨_, houtcome⟩, ?_, ?_, fun it hit => absurd hit (hno it), fun ρ hρ _ => ?_, hunique⟩
      · simpa [hno] using ⟨_, hmatches⟩
      · simp [hno, hopen]
      · refine ⟨types, houtcome, ?_⟩
        rw [hrendered _ (.refl _)]
        refine List.map_congr_left fun parameter hparameter => ?_
        have hclosed : ¬ modifier.LeavesOpen parameter.type := by
          simpa using List.find?_eq_none.mp hopen parameter hparameter
        rw [hmatches.instantiate_eq h.encodable hρ (hothers parameter hparameter) hclosed]

/-- A modifier whose types have terms is typed exactly as far as it matches a ground field that the registry holds. -/
theorem matchedExactly_of_holds (hholds : inference.registry.Holds inference.term)
    (hground : inference.term.isGround) (hparameters : modifier.parameters ≠ [])
    (hreturn : modifier.returnType.Encodable)
    (hothers : ∀ parameter ∈ modifier.parameters.tail, parameter.type.Encodable) :
    inference.MatchedExactly modifier (inference.modifierTypes modifier).1
      (inference.modifierTypes modifier).2 := by
  obtain ⟨text, htext⟩ := Registry.exists_render_eq_ok hholds hground
  have hfieldType : inference.fieldType = .ok text := by
    rw [fieldType, htext]
    rfl
  obtain ⟨⟨overrides, g⟩, hdeclare⟩ :
      ∃ declared, inference.registry.typeParameters modifier.typeParameters [] = declared :=
    ⟨_, rfl⟩
  have hdeclares := inference.registry.declares_typeParameters modifier.typeParameters
  have hgrows := inference.registry.grows_typeParameters modifier.typeParameters []
  rw [hdeclare] at hdeclares hgrows
  obtain ⟨pattern, hpattern, hlater⟩ := Registry.encode_eq_instantiate overrides hreturn g
  obtain ⟨g', hg'⟩ : ∃ g', (g.encode overrides modifier.returnType).2 = g' := ⟨_, rfl⟩
  have hencode : g.encode overrides modifier.returnType = (.ok pattern, g') := Prod.ext hpattern hg'
  have hgrows' := hgrows.trans (hg' ▸ g.grows_encode overrides modifier.returnType)
  have hrendered := hgrows'.render_eq _ htext
  rw [hg'] at hlater
  by_cases hsolvable : ∃ θ : Assignment, θ.IsGround ∧ θ.value pattern = inference.term
  · obtain ⟨θ, hθ, hvalue⟩ := hsolvable
    obtain ⟨s, hs, hfinds⟩ := Term.exists_finds_of_value_eq hground hvalue
    rw [modifierTypes_of_unify hparameters hdeclare hencode hs]
    exact matchedExactly_of_matching ⟨hdeclares, hreturn, hlater, hfinds, hvalue,
      hholds.grows hgrows', hrendered⟩ hθ hfieldType hothers
  · obtain ⟨clash, hclash⟩ := Term.exists_unify_eq_clash hground hsolvable
    rw [modifierTypes_of_clash hparameters hdeclare hencode hclash hrendered]
    refine matchedExactly_of_clash ?_
    rintro ⟨ρ, hρ⟩
    exact hsolvable (hρ.exists_value_eq hdeclares hreturn (hlater g' (.refl g')))

end Modifier

end FieldInference

/-- **Modifiers are matched exactly**, whatever the registry has grown to since the field was inferred. -/
theorem matchedExactly_of_outcome {start finish : Option Signature} {consumer : TypeExpr}
    {style : String} {inference : FieldInference} {g : Registry} {modifier : Signature}
    (h : (inferFieldLogged start finish consumer style).outcome = .ok (.ok inference))
    (hgrows : inference.registry.Grows g) (hparameters : modifier.parameters ≠ [])
    (hreturn : modifier.returnType.Encodable)
    (hothers : ∀ parameter ∈ modifier.parameters.tail, parameter.type.Encodable) :
    let current : FieldInference := ⟨g, inference.term⟩
    current.MatchedExactly modifier (current.modifierTypesLogged modifier).1.outcome
      (current.modifierTypesLogged modifier).2 := by
  obtain ⟨pair, system, -, hsystem, hsolve⟩ := exists_solve_of_outcome_inferFieldLogged h
  obtain ⟨-, -, -, hground, -⟩ := FieldSystem.exists_solve_eq_ok_of_solve hsolve
  have hholds := (FieldSystem.holds_term_of_solve hsystem hsolve).grows hgrows
  dsimp only
  rw [outcome_modifierTypesLogged]
  exact FieldInference.matchedExactly_of_holds hholds hground hparameters hreturn hothers

/-! ### `<T> Acc<T> add(Acc<T> acc, T item)` on a field of type `Acc<String>` -/

namespace Plain

def inferred : FieldInference :=
  ⟨system.registry, acc string⟩

def add : Signature :=
  ⟨"add", ["T"], [⟨"acc", .declared "Acc" [.typeVar "T"]⟩, ⟨"item", .typeVar "T"⟩],
    .declared "Acc" [.typeVar "T"]⟩

theorem encodable_add :
    add.returnType.Encodable ∧ ∀ parameter ∈ add.parameters.tail, parameter.type.Encodable := by
  simp [add]

def strung : Replacement :=
  fun name => if name = "T" then some string else none

theorem matchedExactly_add :
    (inferFieldLogged (some start) (some finish) consumer anonymousStyle).outcome =
        .ok (.ok inferred) ∧
      inferred.registry.Grows inferred.registry ∧ add.parameters ≠ [] ∧ add.returnType.Encodable ∧
      (∀ parameter ∈ add.parameters.tail, parameter.type.Encodable) ∧
      inferred.Matches add (inferred.modifierTypesLogged add).2 strung ∧
      (inferred.modifierTypesLogged add).1.outcome = .ok (.ok ["String"]) := by
  have hparameters : add.parameters ≠ [] := List.cons_ne_nil _ _
  have hexact := matchedExactly_of_outcome outcome_eq (.refl _) hparameters encodable_add.1
    encodable_add.2
  have hafter : (inferred.modifierTypesLogged add).2 = ⟨0, ["Acc", "String"], 4⟩ := by
    with_unfolding_all rfl
  have hmatches : inferred.Matches add (inferred.modifierTypesLogged add).2 strung := by
    rw [hafter]
    refine ⟨fun name => ?_, fun name term hterm => ?_, rfl⟩
    · unfold strung add
      split <;> simp_all
    · unfold strung at hterm
      split at hterm
      · cases hterm
        rfl
      · cases hterm
  refine ⟨outcome_eq, .refl _, hparameters, encodable_add.1, encodable_add.2, hmatches, ?_⟩
  obtain ⟨types, htypes, hrendered⟩ := hexact.types strung hmatches rfl
  have hstring : types.map Except.ok = [(.ok "String" : Except RenderingFault String)] := by
    refine hrendered.trans ?_
    change List.map (fun parameter => Registry.render (inferred.modifierTypesLogged add).2 _) _ = _
    rw [hafter]
    rfl
  match types, hstring with
  | [text], hstring =>
      obtain rfl : text = "String" := by simpa using hstring
      exact htypes

end Plain

end BuilderFields
