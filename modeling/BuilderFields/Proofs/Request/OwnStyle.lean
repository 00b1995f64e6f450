import BuilderFields.Proofs.Plan
import BuilderFields.Proofs.Request
import BuilderFields.Proofs.TypeExpr.Legible

/-!
# Every parameter with its own style

A request keeps the chosen styles by the names of the parameters, and a method is planned by looking them up again. So
a parameter is planned with the style that was chosen last among the parameters of its name. That is its own style if
no other parameter has its name, and otherwise only if the last choice happens to be the same.
-/

namespace BuilderFields

namespace Request

/-- The last style that is chosen under the name. -/
def lastChoice (infos : List FieldInfo) (name : String) : Option FieldStyle :=
  ((infos.filter fun info => info.name = name).filterMap FieldInfo.style).getLast?

/-- The style that is looked up for a name is the one chosen last for it. -/
theorem get?_chosenStyles (infos : List FieldInfo) (name : String) :
    (chosenStyles infos).get? name = lastChoice infos name := by
  rw [chosenStyles, Entries.get?_ofList, lastChoice]
  refine congrArg List.getLast? ?_
  induction infos with
  | nil => rfl
  | cons info rest ih =>
      cases hstyle : info.style with
      | none => by_cases hname : info.name = name <;> simp [hstyle, hname, ih]
      | some style => by_cases hname : info.name = name <;> simp [hstyle, hname, ih]

theorem filter_name_of_nodup {infos : List FieldInfo} (h : (infos.map FieldInfo.name).Nodup)
    {info : FieldInfo} (hinfo : info ∈ infos) :
    (infos.filter fun other => other.name = info.name) = [info] := by
  induction infos with
  | nil => cases hinfo
  | cons first rest ih =>
      rw [List.map_cons, List.nodup_cons] at h
      obtain ⟨hfirst, hrest⟩ := h
      rcases List.mem_cons.mp hinfo with rfl | hmem
      · have hnone : (rest.filter fun other => other.name = info.name) = [] := by
          refine List.filter_eq_nil_iff.mpr fun other hother => ?_
          simpa using fun hsame => hfirst (List.mem_map.mpr ⟨other, hother, hsame⟩)
        simp [hnone]
      · have hne : first.name ≠ info.name := fun hsame =>
          hfirst (List.mem_map.mpr ⟨info, hmem, hsame.symm⟩)
        rw [List.filter_cons_of_neg (by simpa using hne), ih hrest hmem]

/-- Among distinct names each parameter keeps its own choice. -/
theorem lastChoice_of_nodup {infos : List FieldInfo} (h : (infos.map FieldInfo.name).Nodup)
    {info : FieldInfo} (hinfo : info ∈ infos) : lastChoice infos info.name = info.style := by
  rw [lastChoice, filter_name_of_nodup h hinfo]
  cases hstyle : info.style <;> simp [hstyle]

/-- The field has the name and the type of the entry, and is planned with the entry's own style exactly if that is
chosen last under the name. -/
structure PlannedByEntry (infos : List FieldInfo) (info : FieldInfo) (field : FieldPlan) : Prop where
  parameter_eq : field.info.parameter = info.parameter
  planned : (planField field.info).outcome = .ok field
  style_eq_iff : field.info.style = info.style ↔ lastChoice infos info.name = info.style

theorem PlannedByEntry.info_eq {infos : List FieldInfo} {info : FieldInfo} {field : FieldPlan}
    (h : PlannedByEntry infos info field) (hchoice : lastChoice infos info.name = info.style) :
    field.info = info := by
  have hstyle := h.style_eq_iff.mpr hchoice
  calc field.info = ⟨field.info.parameter, field.info.style⟩ := rfl
    _ = ⟨info.parameter, info.style⟩ := by rw [h.parameter_eq, hstyle]
    _ = info := rfl

theorem infos_of_nodup {infos : List FieldInfo} {fields : List FieldPlan}
    (h : List.Forall₂ (PlannedByEntry infos) infos fields)
    (hdistinct : (infos.map FieldInfo.name).Nodup) : fields.map FieldPlan.info = infos := by
  have hown : List.Forall₂ (fun info (field : FieldPlan) => info = field.info) infos fields :=
    ((List.forall₂_and_left ..).mpr ⟨fun info hinfo => hinfo, h⟩).imp fun info field hfield =>
      (hfield.2.info_eq (lastChoice_of_nodup hdistinct hfield.1)).symm
  rw [← List.forall₂_map_right_iff, List.forall₂_eq_eq_eq] at hown
  exact hown.symm

/-- A planned method has one field for each parameter, in the style chosen last for its name. -/
theorem plannedByEntry_of_outcome {infos : List FieldInfo} {name : String} {plan : MethodPlan}
    (h : (planMethod name (infos.map FieldInfo.parameter) (chosenStyles infos)).outcome = .ok plan) :
    plan.name = name ∧ List.Forall₂ (PlannedByEntry infos) infos plan.fields := by
  obtain ⟨hname, hfields⟩ := exists_of_outcome_planMethod h
  refine ⟨hname, ?_⟩
  have hplanned := forall₂_of_outcome_planFields hfields
  rw [List.forall₂_map_left_iff] at hplanned
  refine hplanned.imp fun info field hfield => ?_
  have hinfo := info_of_planField hfield
  refine ⟨by rw [hinfo], by rw [hinfo, hfield], ?_⟩
  rw [hinfo]
  dsimp only
  rw [← get?_chosenStyles]
  rfl

/-- **A parameter is planned with its own style exactly if that style is chosen last under its name**, and so always if
no two parameters of the method have one name. -/
theorem own_style_iff_lastChoice {json : Json} {request : Request} (h : ofJson json = .ok request) :
    ∃ custom entries, Lists json custom entries ∧
      List.Forall₂ (fun entry method => ∃ infos,
        MethodEntry (documentMeaning custom) entry method.name infos ∧
          ∀ plan, method.plan.outcome = .ok plan → plan.name = method.name ∧
            List.Forall₂ (PlannedByEntry infos) infos plan.fields ∧
            ((infos.map FieldInfo.name).Nodup → plan.fields.map FieldPlan.info = infos))
        entries request.methods := by
  obtain ⟨custom, entries, hlists, hstyles, hmethods⟩ := ofJson_eq_ok_iff.mp h
  refine ⟨custom, entries, hlists, hmethods.imp ?_⟩
  rintro entry method ⟨infos, hentry, hparameters, hchosen⟩
  rw [tableMeaning_eq_documentMeaning hstyles] at hentry
  refine ⟨infos, hentry, fun plan hplan => ?_⟩
  rw [MethodRequest.plan, hparameters, hchosen] at hplan
  obtain ⟨hname, hfields⟩ := plannedByEntry_of_outcome hplan
  exact ⟨hname, hfields, infos_of_nodup hfields⟩

/-! ### Two parameters `text` of type `java.lang.String`, of which only the first chooses a style -/

namespace Namesakes

def styled : Json :=
  .object [("name", .text "text"), ("type", .text "java.lang.String"),
    ("style", .text "StringAppending")]

def plain : Json :=
  .object [("name", .text "text"), ("type", .text "java.lang.String")]

def method : Json :=
  .object [("name", .text "log"), ("parameters", .array [styled, plain])]

def document : Json :=
  .object [("methods", .array [method])]

def string : TypeExpr :=
  .declared "java.lang.String" []

def infos : List FieldInfo :=
  [⟨⟨"text", string⟩, some FieldStyle.stringAppending⟩, ⟨⟨"text", string⟩, none⟩]

def request : Request where
  styles := FieldStyle.builtinTable
  methods := [⟨"log", infos.map FieldInfo.parameter, chosenStyles infos⟩]

theorem parse_string : TypeExpr.parse "java.lang.String" [] = .ok string :=
  TypeExpr.parse_eq_ok_iff.mpr (by decide +kernel)

theorem methodEntry_method : MethodEntry (tableMeaning FieldStyle.builtinTable) method "log" infos :=
  ⟨_, [], _, rfl, rfl, rfl, rfl,
    .cons ⟨_, _, rfl, rfl, rfl, parse_string, .named rfl rfl⟩
      (.cons ⟨_, _, rfl, rfl, rfl, parse_string, .absent rfl⟩ .nil)⟩

theorem ofJson_document : ofJson document = .ok request :=
  ofJson_eq_ok_iff.mpr ⟨[], [method], ⟨_, rfl, rfl, rfl⟩, rfl,
    .cons ⟨infos, methodEntry_method, rfl, rfl⟩ .nil⟩

theorem own_style_iff_lastChoice_namesakes :
    ofJson document = .ok request ∧ ∃ custom entries, Lists document custom entries ∧
      List.Forall₂ (fun entry method => ∃ infos,
        MethodEntry (documentMeaning custom) entry method.name infos ∧
          ∀ plan, method.plan.outcome = .ok plan → plan.name = method.name ∧
            List.Forall₂ (PlannedByEntry infos) infos plan.fields ∧
            ((infos.map FieldInfo.name).Nodup → plan.fields.map FieldPlan.info = infos))
        entries request.methods :=
  ⟨ofJson_document, own_style_iff_lastChoice ofJson_document⟩

/-- The second parameter is planned with the style that the first one chooses. -/
theorem planned_with_style_of_namesake :
    ofJson document = .ok request ∧ Lists document [] [method] ∧
      MethodEntry (documentMeaning []) method "log" infos ∧
      (infos[1]?.map FieldInfo.style) = some none ∧
      ∃ method ∈ request.methods, ∃ plan, method.plan.outcome = .ok plan ∧
        (plan.fields[1]?.map fun field => field.info.style.map FieldStyle.name) =
          some (some "StringAppending") := by
  have hfound : (MethodRequest.plan
      ⟨"log", infos.map FieldInfo.parameter, chosenStyles infos⟩).outcome.toOption.any fun plan =>
        (plan.fields[1]?.map fun field => field.info.style.map FieldStyle.name) =
          some (some "StringAppending") := by
    decide +kernel
  obtain ⟨plan, hplan, hstyle⟩ := exists_of_any_toOption hfound
  exact ⟨ofJson_document, ⟨_, rfl, rfl, rfl⟩, methodEntry_method, rfl, _, List.mem_singleton_self _,
    plan, hplan, of_decide_eq_true hstyle⟩

end Namesakes

end Request

end BuilderFields
