import BuilderFields.Plan.Listing
import BuilderFields.Proofs.Plan

/-!
# Plans are aligned with their styles

The names of a wrapper method's parameters are read off the modifier, and their types come from an inference that may
stop before it has one for each. The two have one length all the same, for an inference that stops gives no types at
all. So a listing may pair them strictly, as one does that would rather fail than leave a name or a type out.
-/

namespace BuilderFields

/-! ### As many types as parameters -/

namespace FieldInference

variable {inference : FieldInference} {modifier : Signature} {types : List String}

/-- There is one type for each parameter. -/
theorem length_parameterTypes {name : String} {overrides : Overrides} {s : Substitution}
    {parameters : List Parameter} {g : Registry}
    (h : (inference.parameterTypes name overrides s parameters g).1 = .ok (.ok types)) :
    types.length = parameters.length := by
  induction parameters generalizing g types with
  | nil =>
      cases h
      rfl
  | cons parameter rest ih =>
      rw [parameterTypes] at h
      generalize g.encode overrides parameter.type = outcome at h
      obtain ⟨encoded, g'⟩ := outcome
      cases encoded with
      | error fault => cases h
      | ok term =>
          dsimp only at h
          split at h
          · cases h
          split at h
          · split at h
            · cases h
            · obtain ⟨found, hfound, hmap⟩ := map_eq_ok_iff.mp h
              obtain ⟨others, rfl, rfl⟩ := map_eq_ok_iff.mp hmap
              rw [List.length_cons, List.length_cons, ih hfound]
          · -- A parameter that is left open leaves no types at all.
            split at h <;> cases h

/-- A modifier that is typed has one type for each parameter behind the receiver. -/
theorem exists_parameters_of_modifierTypes {determined : Determined (List String)}
    (h : (inference.modifierTypes modifier).1 = .ok determined) :
    ∃ receiver others, modifier.parameters = receiver :: others ∧
      ∀ types, determined = .ok types → types.length = others.length := by
  unfold modifierTypes at h
  split at h
  · cases h
  · rename_i receiver others hparameters
    refine ⟨receiver, others, hparameters, ?_⟩
    rintro types rfl
    dsimp only at h
    split at h
    · cases h
    split at h
    · cases h
    · split at h <;> cases h
    · exact length_parameterTypes h

end FieldInference

/-! ### Plans of a style -/

/-- There is a type for each name, if there are types. -/
def ModifierPlan.Paired (plan : ModifierPlan) : Prop :=
  ∀ types, plan.parameterTypes = .ok types → types.length = plan.parameterNames.length

structure ModifierPlan.Wraps (plan : ModifierPlan) (field : String) (modifier : Signature) : Prop where
  name : plan.name = modifier.name
  methodName : plan.methodName = modifier.name ++ Text.capitalizeFirst field
  parameterNames : ∃ receiver others, modifier.parameters = receiver :: others ∧
    plan.parameterNames = others.map Parameter.name

/-- The plan of a field has one plan for each modifier of its style, in order, if it has a type. A field without a style
keeps the type of its parameter, and has a setter instead of modifiers. -/
structure FieldPlan.Aligned (plan : FieldPlan) (info : FieldInfo) : Prop where
  info_eq : plan.info = info
  styled : ∀ style, info.style = some style → plan.resolved →
    List.Forall₂ (fun modifier planned => ModifierPlan.Wraps planned info.name modifier)
      style.modifiers plan.modifiers
  paired : ∀ modifier ∈ plan.modifiers, modifier.Paired
  indeterminate : plan.resolved = false → plan.modifiers = []
  plain : info.style = none → ∃ text, info.parameter.type.canonicalText = .ok text ∧
    plan.fieldType = .ok text ∧ plan.modifiers = []
  setter : ∀ name, plan.setterName = some name ↔
    info.style = none ∧ name = "set" ++ Text.capitalizeFirst info.name

theorem ModifierPlan.Describes.wraps {plan : ModifierPlan} {field : String}
    {inference : FieldInference} {modifier : Signature} (h : plan.Describes field inference modifier) :
    plan.Wraps field modifier ∧ plan.Paired := by
  have htypes := h.types
  rw [outcome_modifierTypesLogged] at htypes
  obtain ⟨receiver, others, hparameters, hlength⟩ :=
    FieldInference.exists_parameters_of_modifierTypes htypes
  have hnames : plan.parameterNames = others.map Parameter.name := by
    rw [h.parameterNames, hparameters, List.drop_one, List.tail_cons]
  refine ⟨⟨h.name, h.methodName, receiver, others, hparameters, hnames⟩, fun types hdetermined => ?_⟩
  rw [hnames, List.length_map]
  exact hlength types hdetermined

/-- The plans of the modifiers are in the order of the modifiers. -/
theorem wraps_planModifiers {info : FieldInfo} {style : FieldStyle} {inference : FieldInference}
    {modifiers : List Signature} {plans : List ModifierPlan}
    (h : (planModifiers info style inference modifiers).outcome = .ok plans) :
    List.Forall₂ (fun modifier planned => ModifierPlan.Wraps planned info.name modifier)
      modifiers plans ∧ ∀ planned ∈ plans, planned.Paired := by
  induction modifiers generalizing inference plans with
  | nil =>
      cases h
      exact ⟨.nil, List.forall_mem_nil _⟩
  | cons modifier rest ih =>
      obtain ⟨planned, others, rfl, hdescribes, hothers⟩ := exists_of_outcome_planModifiers_cons h
      obtain ⟨hwraps, hpaired⟩ := ih hothers
      exact ⟨.cons hdescribes.wraps.1 hwraps, List.forall_mem_cons.mpr ⟨hdescribes.wraps.2, hpaired⟩⟩

/-- Exactly the plain fields have a setter, named after the parameter. -/
theorem FieldPlan.setterName_eq_some_iff {plan : FieldPlan} {name : String} :
    plan.setterName = some name ↔
      plan.info.style = none ∧ name = "set" ++ Text.capitalizeFirst plan.info.name := by
  unfold setterName
  cases plan.info.style with
  | none => simp [FieldPlan.name, eq_comm]
  | some style => simp

theorem aligned_of_planStyledField {info : FieldInfo} {style : FieldStyle} {plan : FieldPlan}
    (hstyle : info.style = some style) (h : (planStyledField info style).outcome = .ok plan) :
    plan.Aligned info := by
  have hplain : info.style ≠ none := by simp [hstyle]
  rcases planStyledField_cases h with ⟨it, -, rfl⟩ | ⟨inference, text, plans, -, -, hplans, rfl⟩
  · exact {
      info_eq := rfl
      styled := fun _ _ hresolved => absurd hresolved Bool.false_ne_true
      paired := List.forall_mem_nil _
      indeterminate := fun _ => rfl
      plain := fun hnone => absurd hnone hplain
      setter := fun _ => FieldPlan.setterName_eq_some_iff }
  · obtain ⟨hwraps, hpaired⟩ := wraps_planModifiers hplans
    exact {
      info_eq := rfl
      styled := fun other hother _ => by
        obtain rfl := Option.some.inj (hstyle.symm.trans hother)
        exact hwraps
      paired := hpaired
      indeterminate := fun hunresolved => absurd hunresolved.symm Bool.false_ne_true
      plain := fun hnone => absurd hnone hplain
      setter := fun _ => FieldPlan.setterName_eq_some_iff }

/-- Every field plan lines up with the parameter it was made for. -/
theorem aligned_of_planField {info : FieldInfo} {plan : FieldPlan}
    (h : (planField info).outcome = .ok plan) : plan.Aligned info := by
  unfold planField at h
  split at h
  · exact aligned_of_planStyledField ‹_› h
  · rename_i hstyle
    obtain ⟨text, htext, h⟩ := Logged.exists_of_outcome_bind h
    rw [Logged.outcome_ofExcept, mapError_eq_ok_iff] at htext
    cases h
    exact {
      info_eq := rfl
      styled := fun style hsome => by simp [hstyle] at hsome
      paired := List.forall_mem_nil _
      indeterminate := fun _ => rfl
      plain := fun _ => ⟨text, htext, rfl, rfl⟩
      setter := fun _ => FieldPlan.setterName_eq_some_iff }

/-! ### Listing with types and names paired strictly -/

structure Unpaired where
  types : Nat
  names : Nat
deriving Repr, DecidableEq

def pairStrictly (types names : List String) : Except Unpaired (List (String × String)) :=
  if types.length = names.length then .ok (types.zip names)
  else .error ⟨types.length, names.length⟩

/-- `ModifierPlan.listing`, but no type or name is left out. -/
def ModifierPlan.strictListing (reasons : Bool) (plan : ModifierPlan) :
    Except Unpaired (List String) :=
  match plan.parameterTypes with
  | .error it =>
    .ok (("    " ++ plan.methodName ++ ": <skipped>") ::
      (if reasons then ["      " ++ it.text] else []))
  | .ok types => do
    let pairs ← pairStrictly types plan.parameterNames
    let parameters := pairs.map fun pair => pair.1 ++ " " ++ pair.2
    .ok ["    " ++ plan.methodName ++ "(" ++ Text.commaJoin parameters ++ ")"]

def FieldPlan.strictListing (reasons : Bool) (plan : FieldPlan) : Except Unpaired (List String) :=
  let style :=
    match plan.info.style with
    | some style => " (" ++ style.name ++ ")"
    | none => ""
  match plan.fieldType with
  | .error it =>
    .ok (("  " ++ plan.name ++ style ++ ": <indeterminate>") ::
      (if reasons then ["    " ++ it.text] else []))
  | .ok type => do
    let lines ← plan.modifiers.mapM (ModifierPlan.strictListing reasons)
    .ok (("  " ++ plan.name ++ style ++ ": " ++ type) :: lines.flatten)

def MethodPlan.strictListing (reasons : Bool) (plan : MethodPlan) :
    Except Unpaired (List String) := do
  let lines ← plan.fields.mapM (FieldPlan.strictListing reasons)
  .ok ((plan.name ++ ":") :: lines.flatten)

theorem ModifierPlan.strictListing_eq_ok {plan : ModifierPlan} (h : plan.Paired) (reasons : Bool) :
    plan.strictListing reasons = .ok (plan.listing reasons) := by
  unfold strictListing listing
  cases htypes : plan.parameterTypes with
  | error it => rfl
  | ok types =>
      have hpairs : pairStrictly types plan.parameterNames = .ok (types.zip plan.parameterNames) :=
        if_pos (h types htypes)
      have hwritten : (types.zip plan.parameterNames).map (fun pair => pair.1 ++ " " ++ pair.2) =
          types.zipWith (fun type name => type ++ " " ++ name) plan.parameterNames :=
        List.map_zip_eq_zipWith
      dsimp only
      rw [hpairs, ← hwritten]
      rfl

theorem FieldPlan.strictListing_eq_ok {plan : FieldPlan}
    (h : ∀ modifier ∈ plan.modifiers, modifier.Paired) (reasons : Bool) :
    plan.strictListing reasons = .ok (plan.listing reasons) := by
  unfold strictListing listing
  cases plan.fieldType with
  | error it => rfl
  | ok type =>
      dsimp only
      rw [mapM_eq_ok_map fun modifier hmodifier =>
        ModifierPlan.strictListing_eq_ok (h modifier hmodifier) reasons]
      rfl

theorem MethodPlan.strictListing_eq_ok {plan : MethodPlan}
    (h : ∀ field ∈ plan.fields, ∀ modifier ∈ field.modifiers, modifier.Paired) (reasons : Bool) :
    plan.strictListing reasons = .ok (plan.listing reasons) := by
  unfold strictListing listing
  rw [mapM_eq_ok_map fun field hfield => FieldPlan.strictListing_eq_ok (h field hfield) reasons]
  rfl

/-- In a planned method every modifier that was typed has one type for each of its names. -/
theorem paired_of_planMethod {name : String} {parameters : List Parameter}
    {styles : Entries String FieldStyle} {plan : MethodPlan}
    (h : (planMethod name parameters styles).outcome = .ok plan) :
    ∀ field ∈ plan.fields, ∀ modifier ∈ field.modifiers, modifier.Paired := by
  obtain ⟨-, hfields⟩ := exists_of_outcome_planMethod h
  have hpaired := (forall₂_of_outcome_planFields hfields).flip.imp fun field parameter hplan =>
    And.intro (aligned_of_planField hplan).paired hplan
  exact ((List.forall₂_and_left _ _).mp hpaired).1

/-- **Plans are aligned with their styles**, so what is planned for a method can be listed strictly. -/
theorem plans_aligned :
    (∀ (info : FieldInfo) (plan : FieldPlan),
      (planField info).outcome = .ok plan → plan.Aligned info) ∧
    ∀ (name : String) (parameters : List Parameter) (styles : Entries String FieldStyle)
      (plan : MethodPlan), (planMethod name parameters styles).outcome = .ok plan →
      ∀ reasons, plan.strictListing reasons = .ok (plan.listing reasons) :=
  ⟨fun _ _ => aligned_of_planField, fun _ _ _ _ h =>
    MethodPlan.strictListing_eq_ok (paired_of_planMethod h)⟩

/-! ### `wrap`, which is left without types, and `add`, beside a parameter without a style -/

namespace Plain

def parameters : List Parameter :=
  [⟨"names", consumer⟩, ⟨"count", .primitive "int"⟩]

def styles : Entries String FieldStyle :=
  [("names", { name := "Plain", start, finish, modifiers := [wrap, add] })]

theorem plans_aligned_wrap :
    ∃ field plan, (planField (styled [wrap, add])).outcome = .ok field ∧
      field.modifiers.map ModifierPlan.resolved = [false, true] ∧
      field.Aligned (styled [wrap, add]) ∧
      (planMethod "collect" parameters styles).outcome = .ok plan ∧
      plan.fields.map FieldPlan.setterName = [none, some "setCount"] ∧
      plan.strictListing true = .ok (plan.listing true) := by
  obtain ⟨field, hfield, hresolved⟩ : ∃ field,
      (planField (styled [wrap, add])).outcome = .ok field ∧
        decide (field.modifiers.map ModifierPlan.resolved = [false, true]) :=
    exists_of_any_toOption (by decide +kernel)
  obtain ⟨plan, hplan, hsetters⟩ : ∃ plan,
      (planMethod "collect" parameters styles).outcome = .ok plan ∧
        decide (plan.fields.map FieldPlan.setterName = [none, some "setCount"]) :=
    exists_of_any_toOption (by decide +kernel)
  obtain ⟨haligned, hlisted⟩ := plans_aligned
  exact ⟨field, plan, hfield, of_decide_eq_true hresolved, haligned _ _ hfield, hplan,
    of_decide_eq_true hsetters, hlisted _ _ _ _ hplan true⟩

end Plain

end BuilderFields
