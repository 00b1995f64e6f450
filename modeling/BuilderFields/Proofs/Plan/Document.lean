import BuilderFields.Plan.Document

/-!
# What is null in a written plan

The document of a plan marks with null what was not inferred, and the plan lists it as indeterminate. These are separate
accounts of a plan, for its fields and for the modifiers of each, and they agree: the document has such a null exactly
if the list is not empty. A null style does not count, for it says that a field has none.
-/

namespace BuilderFields

namespace Json

inductive HasNull (keys : List String) : Json → Prop
  | here {key members} (hkey : key ∈ keys) (h : (key, .null) ∈ members) : HasNull keys (.object members)
  | inMember {member members} (h : member ∈ members) (hvalue : HasNull keys member.2) :
      HasNull keys (.object members)
  | inItem {item items} (h : item ∈ items) (hitem : HasNull keys item) : HasNull keys (.array items)

variable {keys : List String}

@[simp]
theorem not_hasNull_null : ¬ HasNull keys .null := nofun

@[simp]
theorem not_hasNull_text (value : String) : ¬ HasNull keys (.text value) := nofun

theorem hasNull_array_iff {items : List Json} :
    HasNull keys (.array items) ↔ ∃ item ∈ items, HasNull keys item := by
  constructor
  · rintro ⟨⟩
    exact ⟨_, ‹_›, ‹_›⟩
  · rintro ⟨item, h, hitem⟩
    exact .inItem h hitem

theorem hasNull_array_map_iff {α : Type} {f : α → Json} {values : List α} :
    HasNull keys (.array (values.map f)) ↔ ∃ value ∈ values, HasNull keys (f value) := by
  rw [hasNull_array_iff]
  constructor
  · rintro ⟨item, hitem, h⟩
    obtain ⟨value, hvalue, rfl⟩ := List.mem_map.mp hitem
    exact ⟨value, hvalue, h⟩
  · rintro ⟨value, hvalue, h⟩
    exact ⟨f value, List.mem_map_of_mem hvalue, h⟩

theorem hasNull_object_iff {members : List (String × Json)} : HasNull keys (.object members) ↔
    ∃ member ∈ members, member.1 ∈ keys ∧ member.2 = .null ∨ HasNull keys member.2 := by
  constructor
  · intro h
    cases h with
    | here hkey h => exact ⟨_, h, Or.inl ⟨hkey, rfl⟩⟩
    | inMember h hvalue => exact ⟨_, h, Or.inr hvalue⟩
  · rintro ⟨⟨key, value⟩, h, ⟨hkey, rfl⟩ | hvalue⟩
    · exact .here hkey h
    · exact .inMember h hvalue

@[simp]
theorem not_hasNull_texts (values : List String) : ¬ HasNull keys (texts values) := by
  simp [texts, hasNull_array_map_iff]

@[simp]
theorem texts_ne_null (values : List String) : texts values ≠ .null := nofun

end Json

/-- The members that are null where nothing was inferred. -/
def inferredMembers : List String :=
  ["type", "parameter_types"]

/-- A modifier plan has a null exactly if it was not resolved. -/
theorem ModifierPlan.hasNull_toJson_iff (plan : ModifierPlan) :
    Json.HasNull inferredMembers plan.toJson ↔ plan.resolved = false := by
  unfold ModifierPlan.toJson ModifierPlan.resolved
  rw [Json.hasNull_object_iff]
  cases plan.parameterTypes <;> simp [inferredMembers, Except.isOk, Except.toBool]

/-- A field plan has a reason exactly if the field or one of its modifiers was not resolved. -/
theorem FieldPlan.indeterminate_ne_nil_iff (plan : FieldPlan) : plan.indeterminate ≠ [] ↔
    plan.resolved = false ∨ ∃ modifier ∈ plan.modifiers, modifier.resolved = false := by
  cases h : plan.resolved <;> simp [FieldPlan.indeterminate, h]

/-- A field plan has a null exactly if it has a reason. -/
theorem FieldPlan.hasNull_toJson_iff (plan : FieldPlan) :
    Json.HasNull inferredMembers plan.toJson ↔ plan.indeterminate ≠ [] := by
  rw [plan.indeterminate_ne_nil_iff]
  unfold FieldPlan.toJson FieldPlan.setterName FieldPlan.resolved
  rw [Json.hasNull_object_iff]
  cases plan.info.style <;> cases plan.fieldType <;>
    simp [inferredMembers, Except.isOk, Except.toBool, Json.hasNull_array_map_iff,
      ← ModifierPlan.hasNull_toJson_iff]

theorem MethodPlan.hasNull_toJson_iff (plan : MethodPlan) :
    Json.HasNull inferredMembers plan.toJson ↔ plan.indeterminate ≠ [] := by
  simp [MethodPlan.toJson, MethodPlan.indeterminate, Json.hasNull_object_iff,
    Json.hasNull_array_map_iff, FieldPlan.hasNull_toJson_iff]

/-- **The document of plans has a null type exactly if some plan lists something as indeterminate.** -/
theorem hasNull_plans_iff (plans : List MethodPlan) :
    Json.HasNull inferredMembers (.array (plans.map MethodPlan.toJson)) ↔
      ∃ plan ∈ plans, plan.indeterminate ≠ [] := by
  simp only [Json.hasNull_array_map_iff, MethodPlan.hasNull_toJson_iff]

end BuilderFields
