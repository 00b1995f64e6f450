import BuilderFields.Plan.Document
import BuilderFields.Proofs.Json.Reading
import BuilderFields.Proofs.Json.Writing

/-!
# Written plans are read back

The document of a plan holds no numbers, and no object in it has two members of one name. So whatever names, reasons and
types it holds, its text is ASCII and is read back as the document, with any indentation. The text therefore tells apart
all plans whose documents differ.
-/

namespace BuilderFields

namespace Json

@[simp]
theorem plain_texts (values : List String) : (texts values).Plain := by
  simp [texts]

theorem plain_array_map {α : Type} {f : α → Json} (h : ∀ value, (f value).Plain) (values : List α) :
    (Json.array (values.map f)).Plain := by
  simp [h]

end Json

theorem ModifierPlan.plain_toJson (plan : ModifierPlan) : plan.toJson.Plain := by
  unfold ModifierPlan.toJson
  cases plan.parameterTypes <;> simp

theorem FieldPlan.plain_toJson (plan : FieldPlan) : plan.toJson.Plain := by
  have hmodifiers := Json.plain_array_map ModifierPlan.plain_toJson plan.modifiers
  unfold FieldPlan.toJson FieldPlan.setterName
  cases plan.info.style <;> cases plan.fieldType <;> simp [hmodifiers]

/-- No object in a method plan has a key twice. -/
theorem MethodPlan.plain_toJson (plan : MethodPlan) : plan.toJson.Plain := by
  have hfields := Json.plain_array_map FieldPlan.plain_toJson plan.fields
  simp [MethodPlan.toJson, hfields]

theorem plain_plans (plans : List MethodPlan) : (Json.array (plans.map MethodPlan.toJson)).Plain :=
  Json.plain_array_map MethodPlan.plain_toJson plans

/-- Written plans are read back as they were. -/
theorem parse_writePlans (indent : Option Int) (plans : List MethodPlan) :
    Json.parse (writePlans indent plans) = .ok (.array (plans.map MethodPlan.toJson)) :=
  Json.parse_write (plain_plans plans) indent

/-- **Plans are read back from their text.** The text is ASCII, and it is the same for the plans of the same document
only. -/
theorem writePlans_decodes (indent : Option Int) (plans : List MethodPlan) :
    (writePlans indent plans).toList.all (fun c => c.toNat < 0x80) ∧
      Json.parse (writePlans indent plans) = .ok (.array (plans.map MethodPlan.toJson)) ∧
      ∀ others, writePlans indent others = writePlans indent plans ↔
        others.map MethodPlan.toJson = plans.map MethodPlan.toJson := by
  refine ⟨List.all_eq_true.mpr fun c hc => ?_, parse_writePlans indent plans, fun others => ⟨?_, ?_⟩⟩
  · exact decide_eq_true ((plain_plans plans).isSafe_write indent c hc).1
  · intro hsame
    have hread := parse_writePlans indent others
    rw [hsame, parse_writePlans indent plans] at hread
    exact (Json.array.inj (Except.ok.inj hread)).symm
  · intro hsame
    rw [writePlans, writePlans, hsame]

end BuilderFields
