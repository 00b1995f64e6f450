import BuilderFields.Proofs.Inference.Matching
import BuilderFields.Proofs.Registry.Renaming

/-!
# The names of type parameters do not matter

Each operation is encoded with unknowns of its own, so its type parameters may be renamed apart from all others. The
equations are those of the other names with their unknowns relabelled, and so is everything that is found on the way
to the outcome, which has no unknowns. Names that are also part of the text of an array are the exception.
-/

namespace BuilderFields

open Substitution

/-- Two inferences agree if they return the same, or if neither determines anything, or if neither returns. -/
inductive Agrees {α : Type} :
    Except Obstacle (Determined α) → Except Obstacle (Determined α) → Prop
  | determined (value : α) : Agrees (.ok (.ok value)) (.ok (.ok value))
  | undetermined (it it' : Indeterminate) : Agrees (.ok (.error it)) (.ok (.error it'))
  | stopped (obstacle obstacle' : Obstacle) : Agrees (.error obstacle) (.error obstacle')

theorem Agrees.map {α β : Type} {first second : Except Obstacle (Determined α)}
    (h : Agrees first second) (f : α → β) :
    Agrees (first.map fun verdict => verdict.map f) (second.map fun verdict => verdict.map f) := by
  cases h with
  | determined value => exact .determined (f value)
  | undetermined it it' => exact .undetermined it it'
  | stopped obstacle obstacle' => exact .stopped obstacle obstacle'

theorem Agrees.eq_ok {α : Type} {first second : Except Obstacle (Determined α)} {value : α}
    (h : Agrees first second) (hfirst : first = .ok (.ok value)) : second = .ok (.ok value) := by
  cases h with
  | determined _ => exact hfirst
  | undetermined it it' => cases hfirst
  | stopped obstacle obstacle' => cases hfirst

/-! ### The field -/

namespace FieldSystem

def relabel (f : Equiv.Perm Unknown) (system : FieldSystem) : FieldSystem where
  registry := system.registry
  field := f system.field
  equations := system.equations.map (Equation.relabel f)

/-- A system and its relabelling come to the same verdict. -/
theorem agrees_solve_relabel (f : Equiv.Perm Unknown) (system : FieldSystem) (style : String) :
    Agrees (system.solve style) ((system.relabel f).solve style) := by
  have hrelabel : Equation.solve (system.relabel f).equations =
      relabelFound f (Equation.solve system.equations) := Equation.solve_relabel f system.equations
  have hfield : Term.unknown (system.relabel f).field = (Term.unknown system.field).relabel f :=
    (Term.relabel_unknown f system.field).symm
  cases hs : Equation.solve system.equations with
  | error unsolved =>
      rw [hs] at hrelabel
      cases unsolved with
      | clash clash =>
          obtain ⟨place, -, heq⟩ := exists_solve_eq_of_clash hs style
          obtain ⟨place', -, heq'⟩ := exists_solve_eq_of_clash hrelabel style
          rw [heq, heq']
          exact .undetermined _ _
      | tooDeep =>
          rw [solve_of_tooDeep hs, solve_of_tooDeep hrelabel]
          exact .stopped _ _
  | ok s =>
      rw [hs, relabelFound] at hrelabel
      cases hterm : s.resolve (.unknown system.field) with
      | error cycle =>
          obtain ⟨other, hother⟩ := resolve_relabel_of_error f hterm
          rw [← hfield] at hother
          rw [solve_of_cycle hs hterm, solve_of_cycle hrelabel hother]
          exact .stopped _ _
      | ok term =>
          have hother := resolve_relabel_of_ok f hterm
          rw [← hfield] at hother
          by_cases hground : term.isGround
          · rw [Term.relabel_of_isGround f hground] at hother
            rw [solve_of_isGround hs hterm hground, solve_of_isGround hrelabel hother hground]
            exact .determined _
          · have hopen : ¬ (term.relabel f).isGround := by rwa [Term.isGround_relabel]
            rw [solve_of_not_isGround hs hterm hground,
              solve_of_not_isGround hrelabel hother hopen]
            exact .undetermined _ _

/-- Renamed operations give a relabelled system. -/
theorem exists_ofPair_rename (pair : StylePair) {consumer : TypeExpr} {σ τ : String → String}
    (hσ : pair.start.Renaming σ) (hτ : pair.finish.Renaming τ)
    (hparameters : pair.finish.parameters = [pair.accumulator])
    (hstart : pair.start.returnType.Encodable)
    (hfinish : ∀ type ∈ pair.finish.types, type.Encodable) (hconsumer : consumer.Encodable)
    (harraysStart : ∀ name ∈ pair.start.returnType.arrayTypeVars, σ name = name)
    (harraysFinish : ∀ type ∈ pair.finish.types, ∀ name ∈ type.arrayTypeVars, τ name = name) :
    ∃ system f, ofPair pair consumer = .ok system ∧
      ofPair ⟨pair.start.rename σ, pair.finish.rename τ, pair.accumulator.rename τ⟩ consumer =
        .ok (system.relabel f) := by
  have htakenMem : pair.accumulator.type ∈ pair.finish.types :=
    Signature.type_mem_types (hparameters ▸ List.mem_cons_self)
  have hreturnMem := pair.finish.returnType_mem_types
  obtain ⟨g₀, hg₀⟩ : ∃ g₀, ((Registry.fresh 0).freshUnknown "F").2 = g₀ := ⟨_, rfl⟩
  have hfirst : g₀.issued = 1 := by rw [← hg₀]; rfl
  -- The unknowns of `start` are relabelled first, and those of `finish` on top of them.
  obtain ⟨ofStart, ofStart', g₁, f₁, hdeclare₁, hdeclare₁', hgrows₁, hconfines₁, hkept₁, hrenames₁⟩ :=
    Registry.exists_renames_typeParameters hσ.injOn g₀.confines_refl
  obtain ⟨ofFinish, ofFinish', g₂, f, hdeclare₂, hdeclare₂', hgrows₂, -, hkept₂, hrenames₂⟩ :=
    Registry.exists_renames_typeParameters hτ.injOn hconfines₁
  have hstartCarries := hrenames₁.carries.later hgrows₂ hkept₂
  have hstartRenames : g₂.Renames f σ pair.start.typeParameters ofStart ofStart' :=
    ⟨hstartCarries, hrenames₁.declares, hrenames₁.declares'⟩
  have hfield : f ((Registry.fresh 0).freshUnknown "F").1 =
      ((Registry.fresh 0).freshUnknown "F").1 := by
    have hzero : ((Registry.fresh 0).freshUnknown "F").1.handle = 0 := rfl
    have hissued := hgrows₁.issued
    rw [hkept₂ _ (by omega), hkept₁ _ (by omega), Equiv.refl_apply]
  obtain ⟨started, g₃, hstarted, hstarted'⟩ :=
    hstartRenames.exists_encode hσ pair.start.returnType_mem_types hstart harraysStart g₂
  obtain ⟨taken, g₄, htaken, htaken'⟩ :=
    hrenames₂.exists_encode hτ htakenMem (hfinish _ htakenMem) (harraysFinish _ htakenMem) g₃
  obtain ⟨finished, g₅, hfinished, hfinished'⟩ :=
    hrenames₂.exists_encode hτ hreturnMem (hfinish _ hreturnMem) (harraysFinish _ hreturnMem) g₄
  obtain ⟨expected, g₆, hexpected, hground⟩ := Registry.exists_encode_nil hconsumer g₅
  have horiginal := ofPair_of_encode (hg₀ ▸ hdeclare₁) hdeclare₂ hstarted htaken hfinished hexpected
  have hrenamed : ofPair ⟨pair.start.rename σ, pair.finish.rename τ, pair.accumulator.rename τ⟩
      consumer = .ok _ :=
    ofPair_of_encode (hg₀ ▸ hdeclare₁') hdeclare₂' hstarted' htaken' hfinished' hexpected
  refine ⟨_, f, horiginal, hrenamed.trans ?_⟩
  simp [relabel, Equation.relabel, hfield, Term.relabel_of_isGround f hground]

end FieldSystem

/-- A finish that does not take exactly one accumulator is an obstacle. -/
theorem exists_outcome_eq_error {start finish : Signature} (consumer : TypeExpr) (style : String)
    (h : ¬ ∃ accumulator, finish.parameters = [accumulator]) :
    ∃ obstacle, (inferFieldLogged (some start) (some finish) consumer style).outcome =
      .error obstacle := by
  rw [outcome_inferFieldLogged, inferField, StylePair.check]
  split
  · rename_i accumulator hparameters
    exact absurd ⟨accumulator, hparameters⟩ h
  · exact ⟨_, rfl⟩

/-- Renamed operations infer the same field, if no name in an array is touched. -/
theorem agrees_outcome_rename {start finish : Signature} {consumer : TypeExpr} {style : String}
    {σ τ : String → String} (hσ : start.Renaming σ) (hτ : finish.Renaming τ)
    (hstart : start.returnType.Encodable) (hfinish : ∀ type ∈ finish.types, type.Encodable)
    (hconsumer : consumer.Encodable)
    (harraysStart : ∀ name ∈ start.returnType.arrayTypeVars, σ name = name)
    (harraysFinish : ∀ type ∈ finish.types, ∀ name ∈ type.arrayTypeVars, τ name = name) :
    Agrees (inferFieldLogged (some start) (some finish) consumer style).outcome
      (inferFieldLogged (some (start.rename σ)) (some (finish.rename τ)) consumer style).outcome := by
  by_cases hone : ∃ accumulator, finish.parameters = [accumulator]
  · obtain ⟨accumulator, hparameters⟩ := hone
    have hpair : StylePair.check (some start) (some finish) style =
        .ok ⟨start, finish, accumulator⟩ := by
      simp [StylePair.check, hparameters]
    have hpair' : StylePair.check (some (start.rename σ)) (some (finish.rename τ)) style =
        .ok ⟨start.rename σ, finish.rename τ, accumulator.rename τ⟩ := by
      simp [StylePair.check, Signature.rename, hparameters]
    obtain ⟨system, f, hsystem, hsystem'⟩ :=
      FieldSystem.exists_ofPair_rename ⟨start, finish, accumulator⟩ hσ hτ hparameters hstart hfinish
        hconsumer harraysStart harraysFinish
    rw [outcome_inferFieldLogged_of_ofPair hpair hsystem,
      outcome_inferFieldLogged_of_ofPair hpair' hsystem']
    exact system.agrees_solve_relabel f style
  · have hone' : ¬ ∃ accumulator, (finish.rename τ).parameters = [accumulator] := by
      rintro ⟨renamed, hrenamed⟩
      obtain ⟨accumulator, hparameters, -⟩ := List.map_eq_singleton_iff.mp hrenamed
      exact hone ⟨accumulator, hparameters⟩
    obtain ⟨obstacle, hobstacle⟩ := exists_outcome_eq_error consumer style hone
    obtain ⟨obstacle', hobstacle'⟩ := exists_outcome_eq_error consumer style hone'
    rw [hobstacle, hobstacle']
    exact .stopped _ _

/-! ### The modifiers -/

namespace FieldInference

variable {inference : FieldInference} {modifier : Signature} {ρ : String → String} {g : Registry}

/-- Renamed parameters are typed the same. -/
theorem agrees_parameterTypes_rename {f : Equiv.Perm Unknown} {overrides overrides' : Overrides}
    (hrenames : g.Renames f ρ modifier.typeParameters overrides overrides')
    (hρ : modifier.Renaming ρ) (name : String) (s : Substitution) (parameters : List Parameter)
    (hmem : ∀ parameter ∈ parameters, parameter ∈ modifier.parameters)
    (htypes : ∀ parameter ∈ parameters, parameter.type.Encodable)
    (harrays : ∀ parameter ∈ parameters, ∀ name ∈ parameter.type.arrayTypeVars, ρ name = name)
    (g' : Registry) :
    let outcome := inference.parameterTypes name overrides s parameters g'
    let outcome' := inference.parameterTypes name overrides' (s.relabel f)
      (parameters.map (Parameter.rename ρ)) g'
    Agrees outcome.1 outcome'.1 ∧ outcome.2 = outcome'.2 := by
  induction parameters generalizing g' with
  | nil =>
      simp only [List.map_nil, parameterTypes, and_true]
      exact .determined []
  | cons parameter rest ih =>
      rw [List.forall_mem_cons] at hmem htypes harrays
      obtain ⟨term, g'', hencode, hencode'⟩ :=
        hrenames.exists_encode hρ (Signature.type_mem_types hmem.1) htypes.1 harrays.1 g'
      have hparameter : (parameter.rename ρ).type = parameter.type.rename ρ := rfl
      rw [List.map_cons, parameterTypes, parameterTypes, hparameter, hencode, hencode']
      dsimp only
      cases hterm : s.resolve term with
      | error cycle =>
          obtain ⟨other, hother⟩ := resolve_relabel_of_error f hterm
          rw [hother]
          exact ⟨.stopped _ _, rfl⟩
      | ok resolved =>
          rw [resolve_relabel_of_ok f hterm]
          dsimp only
          rw [Term.isGround_relabel]
          by_cases hground : resolved.isGround
          · rw [if_pos hground, if_pos hground, Term.relabel_of_isGround f hground]
            cases g''.render resolved with
            | error fault => exact ⟨.stopped _ _, rfl⟩
            | ok text =>
                obtain ⟨hagrees, hsame⟩ := ih hmem.2 htypes.2 harrays.2 g''
                exact ⟨hagrees.map _, hsame⟩
          · rw [if_neg hground, if_neg hground]
            cases g''.render inference.term with
            | error fault => exact ⟨.stopped _ _, rfl⟩
            | ok fieldType => exact ⟨.undetermined _ _, rfl⟩

/-- A renamed modifier is typed the same, if no name in an array is touched. -/
theorem agrees_modifierTypes_rename (inference : FieldInference) (hground : inference.term.isGround)
    (hρ : modifier.Renaming ρ) (hreturn : modifier.returnType.Encodable)
    (hothers : ∀ parameter ∈ modifier.parameters.tail, parameter.type.Encodable)
    (harraysReturn : ∀ name ∈ modifier.returnType.arrayTypeVars, ρ name = name)
    (harraysOthers : ∀ parameter ∈ modifier.parameters.tail,
      ∀ name ∈ parameter.type.arrayTypeVars, ρ name = name) :
    let outcome := inference.modifierTypes modifier
    let outcome' := inference.modifierTypes (modifier.rename ρ)
    Agrees outcome.1 outcome'.1 ∧ outcome.2 = outcome'.2 := by
  cases hparameters : modifier.parameters with
  | nil =>
      have hparameters' : (modifier.rename ρ).parameters = [] := by simp [Signature.rename, hparameters]
      simp only [modifierTypes, hparameters, hparameters', and_true]
      exact .stopped _ _
  | cons receiver others =>
      have hparameters' : (modifier.rename ρ).parameters =
          receiver.rename ρ :: others.map (Parameter.rename ρ) := by
        simp [Signature.rename, hparameters]
      rw [hparameters, List.tail_cons] at hothers harraysOthers
      have hothersMem : ∀ parameter ∈ others, parameter ∈ modifier.parameters := by
        simp +contextual [hparameters]
      obtain ⟨overrides, overrides', g, f, hdeclare, hdeclare', -, -, -, hrenames⟩ :=
        Registry.exists_renames_typeParameters hρ.injOn inference.registry.confines_refl
      obtain ⟨pattern, g', hpattern, hpattern'⟩ :=
        hrenames.exists_encode hρ modifier.returnType_mem_types hreturn harraysReturn g
      have hunify := Term.unify_relabel f inference.term pattern
      rw [Term.relabel_of_isGround f hground] at hunify
      have hnames : (modifier.rename ρ).typeParameters = modifier.typeParameters.map ρ := rfl
      have hreturned : (modifier.rename ρ).returnType = modifier.returnType.rename ρ := rfl
      simp only [modifierTypes, hparameters, hparameters', hnames, hreturned, hdeclare, hdeclare',
        hpattern, hpattern', hunify]
      cases inference.term.unify pattern with
      | error unsolved =>
          cases unsolved with
          | tooDeep => exact ⟨.stopped _ _, rfl⟩
          | clash clash =>
              simp only [relabelFound, Unsolved.relabel]
              cases g'.render inference.term with
              | error fault => exact ⟨.stopped _ _, rfl⟩
              | ok fieldType => exact ⟨.undetermined _ _, rfl⟩
      | ok s =>
          exact agrees_parameterTypes_rename hrenames hρ modifier.name s others hothersMem hothers
            harraysOthers g'

end FieldInference

/-- **The names of type parameters do not matter.** Two operations under other names give the same field or none, and
so does every modifier of that field give the same types or none, whatever the registry has grown to, unless a name
that changes is inside of an array. -/
theorem agrees_rename {start finish : Signature} {consumer : TypeExpr} {style : String}
    {σ τ : String → String} (hσ : start.Renaming σ) (hτ : finish.Renaming τ)
    (hstart : start.returnType.Encodable) (hfinish : ∀ type ∈ finish.types, type.Encodable)
    (hconsumer : consumer.Encodable)
    (harraysStart : ∀ name ∈ start.returnType.arrayTypeVars, σ name = name)
    (harraysFinish : ∀ type ∈ finish.types, ∀ name ∈ type.arrayTypeVars, τ name = name) :
    let outcome := (inferFieldLogged (some start) (some finish) consumer style).outcome
    Agrees outcome
      (inferFieldLogged (some (start.rename σ)) (some (finish.rename τ)) consumer style).outcome ∧
    ∀ inference, outcome = .ok (.ok inference) → ∀ (g : Registry)
      (modifier : Signature) (ρ : String → String), modifier.Renaming ρ →
        modifier.returnType.Encodable →
        (∀ parameter ∈ modifier.parameters.tail, parameter.type.Encodable) →
        (∀ name ∈ modifier.returnType.arrayTypeVars, ρ name = name) →
        (∀ parameter ∈ modifier.parameters.tail,
          ∀ name ∈ parameter.type.arrayTypeVars, ρ name = name) →
        let types := FieldInference.modifierTypesLogged ⟨g, inference.term⟩ modifier
        let types' := FieldInference.modifierTypesLogged ⟨g, inference.term⟩ (modifier.rename ρ)
        Agrees types.1.outcome types'.1.outcome ∧ types.2 = types'.2 := by
  refine ⟨agrees_outcome_rename hσ hτ hstart hfinish hconsumer harraysStart harraysFinish, ?_⟩
  intro inference hinference g modifier ρ hρ hreturn hothers harraysReturn harraysOthers
  obtain ⟨pair, system, -, -, hsolve⟩ := exists_solve_of_outcome_inferFieldLogged hinference
  obtain ⟨-, -, -, hground, -⟩ := FieldSystem.exists_solve_eq_ok_of_solve hsolve
  dsimp only
  rw [outcome_modifierTypesLogged, outcome_modifierTypesLogged]
  exact FieldInference.agrees_modifierTypes_rename ⟨g, inference.term⟩ hground hρ hreturn hothers
    harraysReturn harraysOthers

theorem Signature.renaming_of_single {signature : Signature} {name other : String}
    (hnames : signature.typeParameters = [name])
    (htypes : ∀ type ∈ signature.types, ∀ found ∈ type.typeVars, found = name) :
    signature.Renaming fun found => if found = name then other else found where
  injOn := by
    intro a ha b hb _
    have ha' : a ∈ signature.typeParameters := ha
    have hb' : b ∈ signature.typeParameters := hb
    rw [hnames, List.mem_singleton] at ha' hb'
    rw [ha', hb']
  eq_self := by
    intro found hfound
    rw [hnames, List.mem_singleton] at hfound
    exact if_neg hfound
  fresh := by
    intro type htype found hfound hnot
    rw [hnames, List.mem_singleton] at hnot
    exact absurd (htypes type htype found hfound) hnot

/-! ### `<T> Acc<T> start()` and `<T> Acc<T> add(Acc<T> acc, T item)` with `U` for `T`, as in `finish` -/

namespace Plain

def toU (name : String) : String :=
  if name = "T" then "U" else name

theorem renaming_start : start.Renaming toU :=
  Signature.renaming_of_single rfl (by simp [start, Signature.types])

theorem renaming_add : add.Renaming toU :=
  Signature.renaming_of_single rfl (by simp [add, Signature.types])

theorem encodable_pair :
    start.returnType.Encodable ∧ (∀ type ∈ finish.types, type.Encodable) ∧ consumer.Encodable := by
  simp [start, finish, accumulator, consumer, Signature.types]

theorem agrees_renamed :
    start.Renaming toU ∧ finish.Renaming id ∧ start.returnType.Encodable ∧
      (∀ type ∈ finish.types, type.Encodable) ∧ consumer.Encodable ∧
      (∀ name ∈ start.returnType.arrayTypeVars, toU name = name) ∧
      (∀ type ∈ finish.types, ∀ name ∈ type.arrayTypeVars, id name = name) ∧
      (start.rename toU).text = "<U> Acc<U> start()" ∧
      (inferFieldLogged (some (start.rename toU)) (some (finish.rename id)) consumer
          anonymousStyle).outcome = .ok (.ok inferred) ∧
      (add.rename toU).text = "<U> Acc<U> add(Acc<U> acc, U item)" ∧
      (inferred.modifierTypesLogged (add.rename toU)).1.outcome = .ok (.ok ["String"]) := by
  obtain ⟨hstart, hfinish, hconsumer⟩ := encodable_pair
  have harrays : ∀ name ∈ start.returnType.arrayTypeVars, toU name = name := by
    intro name hname
    cases hname
  have hkept : ∀ type ∈ finish.types, ∀ name ∈ type.arrayTypeVars, id name = name :=
    fun _ _ _ _ => rfl
  obtain ⟨hfield, hmodifiers⟩ := agrees_rename renaming_start finish.renaming_id hstart hfinish
    hconsumer harrays hkept
  have hadd := hmodifiers inferred outcome_eq inferred.registry add toU renaming_add
    encodable_add.1 encodable_add.2 (fun _ h => by cases h)
    (by simp [add, TypeExpr.arrayTypeVars])
  have htypes : (inferred.modifierTypesLogged add).1.outcome = .ok (.ok ["String"]) := by
    with_unfolding_all rfl
  exact ⟨renaming_start, finish.renaming_id, hstart, hfinish, hconsumer, harrays, hkept, rfl,
    hfield.eq_ok outcome_eq, rfl, hadd.1.eq_ok htypes⟩

end Plain

/-! ### `<T> Acc<T[]> start()` as `<S> Acc<S[]> start()`, and `<T> R finish(Acc<T[]> acc)`

An array is an atom of its text. The two operations agree on the text `T[]`, and no longer on `S[]` and `T[]`. -/

namespace Arrayed

def start : Signature :=
  ⟨"start", ["T"], [], .declared "Acc" [.array (.typeVar "T")]⟩

def finish : Signature :=
  ⟨"finish", ["T"], [⟨"acc", .declared "Acc" [.array (.typeVar "T")]⟩], .declared "R" []⟩

def consumer : TypeExpr :=
  .declared "R" []

def toS (name : String) : String :=
  if name = "T" then "S" else name

def field : Unknown := ⟨0, 0, "F"⟩

def acc (argument : Atom) : Term :=
  .seq [.atom ⟨0, 0, "Acc"⟩, .atom argument]

def system : FieldSystem where
  registry := ⟨0, ["Acc", "T[]", "R"], 3⟩
  field := field
  equations := [
    ⟨acc ⟨0, 1, "T[]"⟩, .unknown field, .startReturnsField⟩,
    ⟨.unknown field, acc ⟨0, 1, "T[]"⟩, .finishTakesField⟩,
    ⟨.seq [.atom ⟨0, 2, "R"⟩], .seq [.atom ⟨0, 2, "R"⟩], .finishReturnsConsumer⟩]

theorem outcome_eq :
    (inferFieldLogged (some start) (some finish) consumer anonymousStyle).outcome =
      .ok (.ok ⟨system.registry, acc ⟨0, 1, "T[]"⟩⟩) := by
  have hs : Equation.solve system.equations = .ok (ofList [(field, acc ⟨0, 1, "T[]"⟩)]) := by
    with_unfolding_all rfl
  exact outcome_eq_of_isGround rfl rfl hs rfl rfl

theorem outcome_renamed_eq :
    (inferFieldLogged (some (start.rename toS)) (some finish) consumer anonymousStyle).outcome =
      .ok (.error ⟨.noFieldType anonymousStyle,
        some ⟨.atom ⟨0, 1, "S[]"⟩, .atom ⟨0, 2, "T[]"⟩, .distinctAtoms⟩,
        some ⟨.unknown field, acc ⟨0, 2, "T[]"⟩, .finishTakesField⟩⟩) := by
  rw [outcome_inferFieldLogged]
  with_unfolding_all rfl

theorem renaming_start : start.Renaming toS :=
  Signature.renaming_of_single rfl (by simp [start, Signature.types])

theorem encodable_pair :
    start.returnType.Encodable ∧ (∀ type ∈ finish.types, type.Encodable) ∧ consumer.Encodable := by
  simp [start, finish, consumer, Signature.types, TypeExpr.Genuine, TypeExpr.foreign?]

theorem not_agrees_renamed :
    start.Renaming toS ∧ "S" ∉ start.typeParameters ∧
      (∀ type ∈ start.types, "S" ∉ type.typeVars ∧ "S" ∉ type.arrayTypeVars) ∧
      start.returnType.Encodable ∧ (∀ type ∈ finish.types, type.Encodable) ∧ consumer.Encodable ∧
      (inferFieldLogged (some start) (some finish) consumer anonymousStyle).outcome =
        .ok (.ok ⟨system.registry, acc ⟨0, 1, "T[]"⟩⟩) ∧
      FieldInference.fieldType ⟨system.registry, acc ⟨0, 1, "T[]"⟩⟩ = .ok "Acc<T[]>" ∧
      ∃ it, (inferFieldLogged (some (start.rename toS)) (some finish) consumer
        anonymousStyle).outcome = .ok (.error it) := by
  obtain ⟨hstart, hfinish, hconsumer⟩ := encodable_pair
  refine ⟨renaming_start, by decide, ?_, hstart, hfinish, hconsumer, outcome_eq, rfl, _,
    outcome_renamed_eq⟩
  intro type htype
  obtain rfl : type = start.returnType := List.mem_singleton.mp htype
  exact ⟨List.not_mem_nil, by decide⟩

end Arrayed

end BuilderFields
