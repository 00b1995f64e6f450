import BuilderFields.Proofs.Registry.Instance

/-!
# Types as constants

A type whose variables are all constants is one term, and this term is rendered as the type is written. So where a
replacement gives every declared name the term of a type, the instance is rendered as the type with those types in
the places of its variables.
-/

namespace BuilderFields

namespace Registry

variable {g g' : Registry} {type : TypeExpr} {text : String}

/-- The term of a type all of whose variables are constants. -/
def constant (g : Registry) (type : TypeExpr) : Term :=
  g.instantiate (fun _ => none) type

@[simp]
theorem constant_declared (g : Registry) (name : String) (arguments : List TypeExpr) :
    g.constant (.declared name arguments) =
      .seq (g.atomOf name :: arguments.map g.constant) := by
  rw [constant, instantiate_declared]
  rfl

theorem label_intern (g : Registry) (text : String) : (g.intern text).1.label = text := by
  unfold intern
  split <;> rfl

/-- Distinct texts have distinct atoms. -/
theorem atomOf_inj {other : String} : g.atomOf text = g.atomOf other ↔ text = other := by
  constructor
  · intro h
    rw [← g.label_intern text, ← g.label_intern other, Term.atom.inj h]
  · exact congrArg g.atomOf

/-- Only a declared type has a head with arguments as its term. -/
theorem constant_eq_seq_iff {name : String} {terms : List Term} :
    g.constant type = .seq (g.atomOf name :: terms) ↔
      ∃ arguments, type = .declared name arguments ∧ arguments.map g.constant = terms := by
  constructor
  · intro h
    cases type with
    | declared other arguments =>
        rw [constant_declared, Term.seq.injEq, List.cons.injEq, atomOf_inj] at h
        exact ⟨arguments, by rw [h.1], h.2⟩
    | primitive name => simp [constant, atomOf] at h
    | array component => simp [constant, atomOf] at h
    | typeVar name => simp [constant, atomOf] at h
    | wildcard kind => simp [constant, instantiate] at h
    | bounded kind bound => simp [constant, instantiate] at h
    | intersection bounds => simp [constant, instantiate] at h
    | scalar value => simp [constant, instantiate] at h
  · rintro ⟨arguments, rfl, rfl⟩
    exact constant_declared g name arguments

/-- The term of a type on its own has no unknowns. -/
theorem isGround_constant (g : Registry) (htype : type.Encodable) : (g.constant type).isGround := by
  rw [Term.isGround_iff, List.eq_nil_iff_forall_not_mem]
  intro u hu
  obtain ⟨name, -, found, hfound, -⟩ := (mem_occurrences_instantiate_iff htype).mp hu
  cases hfound

/-- A replacement by terms of types gives the term of the type with these types in it. -/
theorem instantiate_eq_constant_replace (g : Registry) (σ : String → Option TypeExpr)
    (htype : type.Encodable) :
    g.instantiate (fun name => (σ name).map g.constant) type = g.constant (type.replace σ) := by
  induction htype with
  | primitive name => simp [constant]
  | array h => simp [constant]
  | declared name _ ih => simpa using ih
  | typeVar name => cases hname : σ name <;> simp [constant, hname]

/-! ### What is held is there to stay -/

/-- A text that is held already changes nothing. -/
theorem intern_eq_self_of_holds (h : g.Holds (g.atomOf text)) : (g.intern text).2 = g := by
  cases h with
  | atom htext =>
      unfold intern at htext ⊢
      split
      · rfl
      · -- A new atom has no place in the registry as it was.
        rename_i hplace
        rw [hplace, textOf?_eq_some_iff] at htext
        simp [atomAt] at htext

theorem Grows.atomOf_eq_of_holds (hgrows : g.Grows g') (h : g.Holds (g.atomOf text)) :
    g'.atomOf text = g.atomOf text := by
  have hstays : (g.intern text).2.Grows g' := by rwa [intern_eq_self_of_holds h]
  exact hstays.atomOf_eq

/-- The term of a type does not change once it is held. -/
theorem Grows.constant_eq (hgrows : g.Grows g') (htype : type.Encodable)
    (h : g.Holds (g.constant type)) : g'.constant type = g.constant type := by
  induction htype with
  | primitive name =>
      simp only [constant, instantiate_primitive] at h ⊢
      exact hgrows.atomOf_eq_of_holds h
  | array _ =>
      simp only [constant, instantiate_array] at h ⊢
      exact hgrows.atomOf_eq_of_holds h
  | declared name _ ih =>
      rw [constant_declared] at h ⊢
      cases h with
      | seq _ hitems =>
          rw [List.forall_mem_cons, List.forall_mem_map] at hitems
          obtain ⟨hhead, harguments⟩ := hitems
          rw [constant_declared, hgrows.atomOf_eq_of_holds hhead,
            List.map_congr_left fun argument hargument => ih argument hargument
              (harguments argument hargument)]
  | typeVar name =>
      simp only [constant, instantiate_typeVar, Option.getD_none] at h ⊢
      exact hgrows.atomOf_eq_of_holds h

/-! ### Rendering -/

theorem eq_of_render_atomOf {rendered : String} (h : g.render (g.atomOf text) = .ok rendered) :
    rendered = text := by
  rw [atomOf, render] at h
  split at h
  · rename_i found hfound
    cases h
    rw [(textOf?_eq_some_iff.mp hfound).2.2, label_intern]
  · cases h

theorem eq_map_text_of_renderAll {types : List TypeExpr} {texts : List String}
    (htypes : ∀ type ∈ types, ∀ rendered, g.render (g.constant type) = .ok rendered →
      rendered = type.text)
    (h : g.renderAll (types.map g.constant) = .ok texts) : texts = types.map TypeExpr.text := by
  induction types generalizing texts with
  | nil =>
      rw [List.map_nil, renderAll] at h
      cases h
      rfl
  | cons first rest ih =>
      rw [List.forall_mem_cons] at htypes
      rw [List.map_cons, renderAll] at h
      split at h
      · cases h
      · cases h
      · rename_i text others hfirst hrest
        cases h
        rw [htypes.1 text hfirst, ih htypes.2 hrest, List.map_cons]

/-- The term of a type is rendered as the type is written. -/
theorem eq_text_of_render_constant (htype : type.Encodable) {rendered : String}
    (h : g.render (g.constant type) = .ok rendered) : rendered = type.text := by
  induction htype generalizing rendered with
  | primitive name =>
      rw [constant, instantiate_primitive] at h
      rw [eq_of_render_atomOf h, TypeExpr.text]
  | array _ =>
      rw [constant, instantiate_array] at h
      rw [eq_of_render_atomOf h, TypeExpr.text]
  | typeVar name =>
      rw [constant, instantiate_typeVar, Option.getD_none] at h
      rw [eq_of_render_atomOf h, TypeExpr.text]
  | @declared name arguments _ ih =>
      rw [constant_declared] at h
      cases arguments with
      | nil =>
          rw [List.map_nil, render] at h
          rw [eq_of_render_atomOf h, TypeExpr.text]
      | cons first rest =>
          rw [List.map_cons, render] at h
          split at h
          · cases h
          · cases h
          · rename_i head texts hhead htexts
            cases h
            have hsame : texts = (first :: rest).map TypeExpr.text :=
              eq_map_text_of_renderAll (fun argument hargument _ => ih argument hargument) htexts
            rw [eq_of_render_atomOf hhead, hsame, TypeExpr.text, TypeExpr.textAll_eq_map,
              List.map_cons]

end Registry

end BuilderFields
