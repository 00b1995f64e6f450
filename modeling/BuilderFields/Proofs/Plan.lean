import BuilderFields.Plan
import BuilderFields.Proofs.Inference.Independence

/-!
# What a plan is made of

The plan of a styled field is read back from the inference that made it: the field's type first, then one plan for each
modifier, with the types that the modifier has after those before it. As a modifier comes to the same whatever has been
inferred before it, plans agree on the modifiers that two versions of a style share.
-/

namespace BuilderFields

/-! ### The modifiers of a field -/

structure ModifierPlan.Describes (plan : ModifierPlan) (field : String)
    (inference : FieldInference) (modifier : Signature) : Prop where
  name : plan.name = modifier.name
  methodName : plan.methodName = modifier.name ++ Text.capitalizeFirst field
  parameterNames : plan.parameterNames = (modifier.parameters.drop 1).map Parameter.name
  types : (inference.modifierTypesLogged modifier).1.outcome = .ok plan.parameterTypes

section Modifiers

variable {info : FieldInfo} {style : FieldStyle} {inference : FieldInference}
  {modifier : Signature} {rest : List Signature} {plans : List ModifierPlan}

theorem exists_of_outcome_planModifiers_cons
    (h : (planModifiers info style inference (modifier :: rest)).outcome = .ok plans) :
    ∃ plan others, plans = plan :: others ∧ plan.Describes info.name inference modifier ∧
      (planModifiers info style (inference.next modifier) rest).outcome = .ok others := by
  rw [planModifiers] at h
  obtain ⟨types, htypes, h⟩ := Logged.exists_of_outcome_bind h
  obtain ⟨_, -, h⟩ := Logged.exists_of_outcome_bind h
  obtain ⟨others, hothers, h⟩ := Logged.exists_of_outcome_bind h
  rw [Logged.outcome_mapError, mapError_eq_ok_iff] at htypes
  cases h
  exact ⟨_, others, rfl, ⟨rfl, rfl, rfl, htypes⟩, hothers⟩

/-- There is one plan for each modifier, in order, after what the modifiers before it have left behind. -/
theorem describes_planModifiers {modifiers : List Signature}
    (h : (planModifiers info style inference modifiers).outcome = .ok plans) (i : Nat) :
    Option.Rel (fun modifier plan =>
      plan.Describes info.name (inference.after (modifiers.take i)) modifier) modifiers[i]? plans[i]? := by
  induction modifiers generalizing inference plans i with
  | nil =>
      cases h
      exact .none
  | cons modifier rest ih =>
      obtain ⟨plan, others, rfl, hplan, hothers⟩ := exists_of_outcome_planModifiers_cons h
      cases i with
      | zero => exact .some hplan
      | succ i => exact ih hothers i

end Modifiers

/-! ### The field -/

section Field

variable {info : FieldInfo} {style : FieldStyle} {plan : FieldPlan}

/-- A styled field is planned with its modifiers if it was inferred, and with the reason alone if not. -/
theorem planStyledField_cases (h : (planStyledField info style).outcome = .ok plan) :
    let verdict := (inferFieldLogged (some style.start) (some style.finish) info.parameter.type
      style.name).outcome
    (∃ it, verdict = .ok (.error it) ∧ plan = ⟨info, .error it, []⟩) ∨
      ∃ inference text modifiers, verdict = .ok (.ok inference) ∧ inference.fieldType = .ok text ∧
        (planModifiers info style inference style.modifiers).outcome = .ok modifiers ∧
        plan = ⟨info, .ok text, modifiers⟩ := by
  dsimp only
  obtain ⟨verdict, hverdict, h⟩ := Logged.exists_of_outcome_bind h
  rw [Logged.outcome_mapError, mapError_eq_ok_iff] at hverdict
  cases verdict with
  | error it =>
      obtain ⟨_, -, h⟩ := Logged.exists_of_outcome_bind h
      cases h
      exact Or.inl ⟨it, hverdict, rfl⟩
  | ok inference =>
      obtain ⟨modifiers, hmodifiers, h⟩ := Logged.exists_of_outcome_bind h
      obtain ⟨text, htext, h⟩ := Logged.exists_of_outcome_bind h
      cases h
      exact Or.inr ⟨inference, text, modifiers, hverdict, htext, hmodifiers, rfl⟩

theorem info_of_planField (h : (planField info).outcome = .ok plan) : plan.info = info := by
  unfold planField at h
  split at h
  · rcases planStyledField_cases h with ⟨_, -, rfl⟩ | ⟨_, _, _, -, -, -, rfl⟩ <;> rfl
  · obtain ⟨_, -, h⟩ := Logged.exists_of_outcome_bind h
    cases h
    rfl

/-- Parameters are planned one by one, each with the style listed under its name. -/
theorem forall₂_of_outcome_planFields {styles : Entries String FieldStyle}
    {parameters : List Parameter} {plans : List FieldPlan}
    (h : (planFields styles parameters).outcome = .ok plans) :
    List.Forall₂ (fun parameter plan =>
      (planField ⟨parameter, styles.get? parameter.name⟩).outcome = .ok plan) parameters plans := by
  induction parameters generalizing plans with
  | nil =>
      cases h
      exact .nil
  | cons parameter rest ih =>
      rw [planFields] at h
      obtain ⟨first, hfirst, h⟩ := Logged.exists_of_outcome_bind h
      obtain ⟨others, hothers, h⟩ := Logged.exists_of_outcome_bind h
      cases h
      exact .cons hfirst (ih hothers)

/-- A method is planned parameter by parameter, each in the style found under its name. -/
theorem exists_of_outcome_planMethod {name : String} {parameters : List Parameter}
    {styles : Entries String FieldStyle} {plan : MethodPlan}
    (h : (planMethod name parameters styles).outcome = .ok plan) :
    plan.name = name ∧ (planFields styles parameters).outcome = .ok plan.fields := by
  obtain ⟨fields, hfields, h⟩ := Logged.exists_of_outcome_bind h
  obtain ⟨_, -, h⟩ := Logged.exists_of_outcome_bind h
  cases h
  exact ⟨rfl, hfields⟩

end Field

/-! ### Modifiers that two plans share -/

structure ModifierPlan.Alike (plan plan' : ModifierPlan) : Prop where
  name_eq : plan.name = plan'.name
  methodName_eq : plan.methodName = plan'.methodName
  parameterNames_eq : plan.parameterNames = plan'.parameterNames
  types_alike : plan.parameterTypes.Alike plan'.parameterTypes

/-- The field has the same type in both plans, and wherever the lists have a modifier in common, so have the plans. -/
structure FieldPlan.AgreesOn (plan plan' : FieldPlan) (modifiers modifiers' : List Signature) :
    Prop where
  fieldType_eq : plan.fieldType = plan'.fieldType
  unresolved : plan.resolved = false → plan.modifiers = [] ∧ plan'.modifiers = []
  resolved : plan.resolved → ∀ (i j : Nat) (modifier : Signature),
    modifiers[i]? = some modifier → modifiers'[j]? = some modifier →
      ∃ found found' : ModifierPlan, plan.modifiers[i]? = some found ∧ plan'.modifiers[j]? = some found' ∧
        found.Alike found'

theorem exists_getElem?_of_rel {α β : Type} {R : α → β → Prop} {as : List α} {bs : List β} {i : Nat}
    {a : α} (h : Option.Rel R as[i]? bs[i]?) (ha : as[i]? = some a) :
    ∃ b, bs[i]? = some b ∧ R a b := by
  rw [ha] at h
  cases hb : bs[i]? with
  | none =>
      rw [hb] at h
      cases h
  | some b =>
      rw [hb] at h
      cases h with
      | some hab => exact ⟨b, rfl, hab⟩

/-- A modifier is described alike after different modifiers. -/
theorem ModifierPlan.Describes.alike {plan plan' : ModifierPlan} {field : String}
    {inference : FieldInference} {modifier : Signature} {earlier earlier' : List Signature}
    (hsolved : inference.Solved) (h : plan.Describes field (inference.after earlier) modifier)
    (h' : plan'.Describes field (inference.after earlier') modifier) : plan.Alike plan' where
  name_eq := h.name.trans h'.name.symm
  methodName_eq := h.methodName.trans h'.methodName.symm
  parameterNames_eq := h.parameterNames.trans h'.parameterNames.symm
  types_alike := by
    have halike := hsolved.modifierTypes_after_alike modifier earlier earlier'
    rw [← outcome_modifierTypesLogged, ← outcome_modifierTypesLogged, h.types, h'.types] at halike
    cases halike with
    | ok hsame => exact hsame

/-- Fields that share a modifier agree on it. -/
theorem agreesOn_planStyledField {parameter : Parameter} {chosen chosen' : Option FieldStyle}
    {style : FieldStyle} {modifiers modifiers' : List Signature} {plan plan' : FieldPlan}
    (h : (planStyledField ⟨parameter, chosen⟩ { style with modifiers := modifiers }).outcome =
      .ok plan)
    (h' : (planStyledField ⟨parameter, chosen'⟩ { style with modifiers := modifiers' }).outcome =
      .ok plan') :
    plan.AgreesOn plan' modifiers modifiers' := by
  -- The inference of the field does not look at the modifiers, so it ended in the same way twice.
  rcases planStyledField_cases h with
    ⟨it, hverdict, rfl⟩ | ⟨inference, text, plans, hverdict, htext, hplans, rfl⟩
  · rcases planStyledField_cases h' with ⟨it', hverdict', rfl⟩ | ⟨_, _, _, hverdict', -⟩
    · cases hverdict.symm.trans hverdict'
      exact ⟨rfl, fun _ => ⟨rfl, rfl⟩, fun hresolved => absurd hresolved Bool.false_ne_true⟩
    · cases hverdict.symm.trans hverdict'
  · rcases planStyledField_cases h' with
      ⟨_, hverdict', -⟩ | ⟨inference', text', plans', hverdict', htext', hplans', rfl⟩
    · cases hverdict.symm.trans hverdict'
    · cases hverdict.symm.trans hverdict'
      cases htext.symm.trans htext'
      refine ⟨rfl, fun hunresolved => absurd hunresolved.symm Bool.false_ne_true, ?_⟩
      intro _ i j modifier hi hj
      obtain ⟨found, hfound, hdescribes⟩ := exists_getElem?_of_rel (describes_planModifiers hplans i) hi
      obtain ⟨found', hfound', hdescribes'⟩ :=
        exists_getElem?_of_rel (describes_planModifiers hplans' j) hj
      exact ⟨found, found', hfound, hfound', hdescribes.alike (solved_of_outcome hverdict) hdescribes'⟩

/-- **Modifiers do not affect each other.** A modifier comes to the same whatever has been inferred on the field before
it, and in the plans of a field it stays what it is while other modifiers are added, left out or moved. -/
theorem modifiers_independent :
    (∀ {start finish : Option Signature} {consumer : TypeExpr} {style : String}
      {inference : FieldInference},
      (inferFieldLogged start finish consumer style).outcome = .ok (.ok inference) →
      ∀ (modifier : Signature) (earlier earlier' : List Signature),
        Parallel Eq Determined.Alike
          ((inference.after earlier).modifierTypesLogged modifier).1.outcome
          ((inference.after earlier').modifierTypesLogged modifier).1.outcome) ∧
    ∀ (parameter : Parameter) (style : FieldStyle) (modifiers modifiers' : List Signature)
      (plan plan' : FieldPlan),
      (planField ⟨parameter, some { style with modifiers := modifiers }⟩).outcome = .ok plan →
      (planField ⟨parameter, some { style with modifiers := modifiers' }⟩).outcome = .ok plan' →
      plan.AgreesOn plan' modifiers modifiers' := by
  refine ⟨fun h modifier earlier earlier' => ?_, fun parameter style modifiers modifiers' plan plan'
    h h' => ?_⟩
  · rw [outcome_modifierTypesLogged, outcome_modifierTypesLogged]
    exact (solved_of_outcome h).modifierTypes_after_alike modifier earlier earlier'
  · exact agreesOn_planStyledField h h'

/-! ### `add`, once alone and once after `<T> Box<T> wrap(Acc<T> acc)`, which does not return the field -/

namespace Plain

def wrap : Signature :=
  ⟨"wrap", ["T"], [⟨"acc", .declared "Acc" [.typeVar "T"]⟩], .declared "Box" [.typeVar "T"]⟩

def styled (modifiers : List Signature) : FieldInfo :=
  ⟨⟨"names", consumer⟩, some { name := "Plain", start, finish, modifiers }⟩

theorem modifiers_independent_wrap :
    (inferFieldLogged (some start) (some finish) consumer anonymousStyle).outcome =
        .ok (.ok inferred) ∧
      Parallel Eq Determined.Alike ((inferred.after []).modifierTypesLogged wrap).1.outcome
        ((inferred.after [addEach, add]).modifierTypesLogged wrap).1.outcome ∧
      ∃ plan plan', (planField (styled [add])).outcome = .ok plan ∧
        (planField (styled [wrap, add])).outcome = .ok plan' ∧ plan.resolved ∧
        plan.AgreesOn plan' [add] [wrap, add] := by
  obtain ⟨plan, hplan, hresolved⟩ : ∃ plan, (planField (styled [add])).outcome = .ok plan ∧
      plan.resolved :=
    exists_of_any_toOption (by decide +kernel)
  obtain ⟨plan', hplan', -⟩ : ∃ plan', (planField (styled [wrap, add])).outcome = .ok plan' ∧
      plan'.resolved :=
    exists_of_any_toOption (by decide +kernel)
  obtain ⟨hinferred, hplanned⟩ := modifiers_independent
  exact ⟨outcome_eq, hinferred outcome_eq wrap [] [addEach, add], plan, plan', hplan, hplan',
    hresolved, hplanned ⟨"names", consumer⟩ ⟨"Plain", start, finish, []⟩ [add] [wrap, add] plan plan'
      hplan hplan'⟩

end Plain

end BuilderFields
