import BuilderFields.Proofs.Request

/-!
# A request without the methods that fail

The methods of a document are read one by one, each from its own entry. So leaving out the entries whose methods cannot
be planned leaves out exactly those methods and changes nothing else: neither the styles, nor the other methods, nor
their order.
-/

namespace BuilderFields

def MethodRequest.Fails (method : MethodRequest) : Prop :=
  ∃ obstacle, method.plan.outcome = .error obstacle

theorem MethodRequest.fails_iff {method : MethodRequest} :
    method.Fails ↔ method.plan.outcome.isOk = false := by
  unfold MethodRequest.Fails
  cases method.plan.outcome <;> simp [Except.isOk, Except.toBool]

namespace Request

def plannable (methods : List MethodRequest) : Json → Json
  | .array entries => .array <|
      ((entries.zip methods).filter fun pair => pair.2.plan.outcome.isOk).map Prod.fst
  | json => json

/-- The document without the entries of methods that fail. -/
def withoutFailing (methods : List MethodRequest) : Json → Json
  | .object document => .object <| document.map fun member =>
      (member.1, if member.1 = "methods" then plannable methods member.2 else member.2)
  | json => json

theorem forall₂_filter_zip {α β : Type} {R : α → β → Prop} {items : List α} {values : List β}
    (h : List.Forall₂ R items values) (keep : β → Bool) :
    List.Forall₂ R (((items.zip values).filter fun pair => keep pair.2).map Prod.fst)
      (values.filter keep) := by
  induction h with
  | nil => exact .nil
  | @cons item value _ _ hfirst _ ih =>
      cases hkeep : keep value with
      | true =>
          simp only [List.zip_cons_cons, List.filter_cons, hkeep, if_true, List.map_cons]
          exact .cons hfirst ih
      | false => simpa [hkeep] using ih

theorem get?_withoutFailing (keep : Json → Json) (document : Entries String Json) (key : String) :
    Entries.get? (document.map fun member =>
        (member.1, if member.1 = "methods" then keep member.2 else member.2)) key =
      if key = "methods" then (document.get? key).map keep else document.get? key := by
  induction document with
  | nil => simp
  | cons member rest ih =>
      rw [List.map_cons, Entries.get?_cons, Entries.get?_cons, ih]
      by_cases hmember : key = member.1
      · subst hmember
        by_cases hmethods : member.1 = "methods" <;> simp [hmethods]
      · simp [hmember]

/-- Without its failing methods the document lists the methods that are left. -/
theorem Lists.withoutFailing {json : Json} {custom : Entries String Json} {entries : List Json}
    (h : Lists json custom entries) (methods : List MethodRequest) :
    Lists (withoutFailing methods json) custom
      (((entries.zip methods).filter fun pair => pair.2.plan.outcome.isOk).map Prod.fst) := by
  obtain ⟨document, rfl, hcustom, hentries⟩ := h
  refine ⟨_, rfl, ?_, ?_⟩
  · rwa [get?_withoutFailing, if_neg (by decide)]
  · rw [get?_withoutFailing, if_pos rfl]
    cases hmember : document.get? "methods" with
    | none =>
        rw [hmember] at hentries
        cases hentries
        rfl
    | some json =>
        rw [hmember] at hentries
        cases hentries
        rfl

/-- **Leaving out the entries of the methods that fail leaves out those methods and nothing else.** -/
theorem ofJson_withoutFailing {json : Json} {request : Request} (h : ofJson json = .ok request) :
    ofJson (withoutFailing request.methods json) =
      .ok ⟨request.styles, request.methods.filter fun method => method.plan.outcome.isOk⟩ := by
  obtain ⟨custom, entries, hlists, hstyles, hmethods⟩ := ofJson_eq_ok_iff.mp h
  exact ofJson_eq_ok_iff.mpr ⟨custom, _, hlists.withoutFailing request.methods, hstyles,
    forall₂_filter_zip hmethods fun method => method.plan.outcome.isOk⟩

end Request

end BuilderFields
