import BuilderFields.Proofs.Registry.Calls
import BuilderFields.Proofs.Term.Alike

/-!
# Registries that have grown apart

Two registries that were asked for different things number the same texts differently. What they encode is alike all
the same: atoms correspond if they stand for one text, and unknowns if they were drawn for one declared name. The
correspondence is that of the registries as they are in the end, so that it stays the same from one type to the next.
-/

namespace BuilderFields

structure Correspondence.KeepsNames (c : Correspondence) : Prop where
  label_eq : ∀ {a b}, c.atoms a b → a.label = b.label
  hint_eq : ∀ {u v}, c.unknowns u v → u.hint = v.hint

namespace Registry

structure Twins (g g' : Registry) (overrides overrides' : Overrides) (names : List String) :
    Prop where
  nodup : g.texts.Nodup
  nodup' : g'.texts.Nodup
  declares : overrides.Declares names
  declares' : overrides'.Declares names

theorem grows_encodeAll_cons {g : Registry} (overrides : Overrides) {first : TypeExpr}
    (rest : List TypeExpr) :
    (g.encode overrides first).2.Grows (g.encodeAll overrides (first :: rest)).2 := by
  rw [encodeAll]
  generalize g.encode overrides first = outcome
  obtain ⟨encoded, g'⟩ := outcome
  cases encoded with
  | error fault => exact .refl g'
  | ok term => exact (encodeAll_spec overrides rest g').1

theorem renderAll_eq_of_forall₂ {g g' : Registry} {items items' : List Term}
    (h : List.Forall₂ (fun item item' => g.render item = g'.render item') items items') :
    g.renderAll items = g'.renderAll items' := by
  induction h with
  | nil => rw [renderAll, renderAll]
  | cons hfirst _ ih => rw [renderAll, renderAll, hfirst, ih]

namespace Twins

variable {g g' : Registry} {overrides overrides' : Overrides} {names : List String}

/-- No text is stored under two atoms. -/
theorem atom_unique (hnodup : g.texts.Nodup) {a b : Atom} {text : String}
    (ha : g.textOf? a = some text) (hb : g.textOf? b = some text) : a = b := by
  rw [← atomFor?_eq_some_iff hnodup] at ha hb
  exact Option.some.inj (ha.symm.trans hb)

theorem text_eq {a : Atom} {text other : String} (h : g.textOf? a = some text)
    (h' : g.textOf? a = some other) : text = other :=
  Option.some.inj (h.symm.trans h')

/-- Atoms with one text and unknowns of one name stand for each other. -/
def correspondence (h : Twins g g' overrides overrides' names) : Correspondence where
  atoms := fun a b => ∃ text, g.textOf? a = some text ∧ g'.textOf? b = some text
  unknowns := fun u v => ∃ name, overrides.get? name = some u ∧ overrides'.get? name = some v
  biUnique_atoms := by
    constructor
    · rintro a b other ⟨text, ha, hother⟩ ⟨text', hb, hother'⟩
      obtain rfl := text_eq hother hother'
      exact atom_unique h.nodup ha hb
    · rintro other a b ⟨text, hother, ha⟩ ⟨text', hother', hb⟩
      obtain rfl := text_eq hother hother'
      exact atom_unique h.nodup' ha hb
  biUnique_unknowns := by
    constructor
    · rintro u v other ⟨name, hu, hother⟩ ⟨name', hv, hother'⟩
      obtain rfl := (h.declares'.hint hother).symm.trans (h.declares'.hint hother')
      exact Option.some.inj (hu.symm.trans hv)
    · rintro other u v ⟨name, hother, hu⟩ ⟨name', hother', hv⟩
      obtain rfl := (h.declares.hint hother).symm.trans (h.declares.hint hother')
      exact Option.some.inj (hu.symm.trans hv)

theorem keepsNames (h : Twins g g' overrides overrides' names) : h.correspondence.KeepsNames where
  label_eq := by
    rintro a b ⟨text, ha, hb⟩
    rw [textOf?_eq_some_iff] at ha hb
    exact ha.2.2.symm.trans hb.2.2
  hint_eq := by
    rintro u v ⟨name, hu, hv⟩
    rw [h.declares.hint hu, h.declares'.hint hv]

variable (twins : Twins g g' overrides overrides' names)

/-- One text is given alike atoms by twin registries. -/
theorem atoms_intern {h h' : Registry} {text : String} (hgrows : (h.intern text).2.Grows g)
    (hgrows' : (h'.intern text).2.Grows g') :
    Term.Alike twins.correspondence (.atom (h.intern text).1) (.atom (h'.intern text).1) :=
  .atom ⟨text, hgrows.textOf? (h.textOf?_intern text), hgrows'.textOf? (h'.textOf?_intern text)⟩

/-- What both registries have held since before they parted is alike to itself. -/
theorem alike_self {base : Registry} {term : Term} (hholds : base.Holds term)
    (hground : term.isGround) (hgrows : base.Grows g) (hgrows' : base.Grows g') :
    Term.Alike twins.correspondence term term := by
  induction hholds with
  | @atom a text htext => exact .atom ⟨text, hgrows.textOf? htext, hgrows'.textOf? htext⟩
  | unknown u => simp [Term.isGround_iff] at hground
  | seq hne _ ih =>
      rw [Term.isGround_seq_iff] at hground
      exact .seq (List.forall₂_same.mpr fun item hitem => ih item hitem (hground item hitem))

mutual

/-- **The same type is encoded alike**, or its encoding fails for the same reason. -/
theorem encode_alike {h h' : Registry} (type : TypeExpr)
    (hgrows : (h.encode overrides type).2.Grows g)
    (hgrows' : (h'.encode overrides' type).2.Grows g') :
    Parallel Eq (Term.Alike twins.correspondence) (h.encode overrides type).1
      (h'.encode overrides' type).1 := by
  cases type with
  | typeVar name =>
      have hdeclared := (twins.declares.isSome_iff name).trans (twins.declares'.isSome_iff name).symm
      rw [encode] at hgrows hgrows' ⊢
      rw [encode]
      cases hu : overrides.get? name with
      | some u =>
          rw [hu] at hdeclared
          obtain ⟨v, hv⟩ := Option.isSome_iff_exists.mp (hdeclared.mp rfl)
          rw [hv]
          exact .ok (.unknown ⟨name, hu, hv⟩)
      | none =>
          rw [hu] at hdeclared hgrows
          have hv : overrides'.get? name = none := by simpa using hdeclared
          rw [hv] at hgrows' ⊢
          exact .ok (twins.atoms_intern hgrows hgrows')
  | declared name arguments =>
      rw [encode] at hgrows hgrows' ⊢
      rw [encode]
      have hlater := (encodeAll_spec overrides arguments (h.intern name).2).1.trans hgrows
      have hlater' := (encodeAll_spec overrides' arguments (h'.intern name).2).1.trans hgrows'
      have harguments : Parallel Eq (List.Forall₂ (Term.Alike twins.correspondence))
          ((h.intern name).2.encodeAll overrides arguments).1
          ((h'.intern name).2.encodeAll overrides' arguments).1 :=
        encodeAll_alike arguments hgrows hgrows'
      exact harguments.map fun _ _ hterms => .seq (.cons (twins.atoms_intern hlater hlater') hterms)
  | primitive name =>
      rw [encode] at hgrows hgrows' ⊢
      rw [encode]
      exact .ok (twins.atoms_intern hgrows hgrows')
  | array component =>
      rw [encode] at hgrows hgrows' ⊢
      rw [encode]
      cases htext : component.canonicalText with
      | ok text =>
          rw [htext] at hgrows hgrows'
          exact .ok (twins.atoms_intern hgrows hgrows')
      | error value => exact .error rfl
  | wildcard kind => exact .error rfl
  | bounded kind bound => exact .error rfl
  | intersection bounds => exact .error rfl
  | scalar value => exact .error rfl

/-- Types are encoded alike by twin registries, or rejected for the same one among them. -/
theorem encodeAll_alike {h h' : Registry} (types : List TypeExpr)
    (hgrows : (h.encodeAll overrides types).2.Grows g)
    (hgrows' : (h'.encodeAll overrides' types).2.Grows g') :
    Parallel Eq (List.Forall₂ (Term.Alike twins.correspondence)) (h.encodeAll overrides types).1
      (h'.encodeAll overrides' types).1 := by
  cases types with
  | nil => exact .ok .nil
  | cons first rest =>
      have hfirst := encode_alike first ((grows_encodeAll_cons overrides rest).trans hgrows)
        ((grows_encodeAll_cons overrides' rest).trans hgrows')
      rw [encodeAll] at hgrows hgrows' ⊢
      rw [encodeAll]
      generalize h.encode overrides first = outcome at hgrows hfirst ⊢
      generalize h'.encode overrides' first = outcome' at hgrows' hfirst ⊢
      obtain ⟨encoded, h₁⟩ := outcome
      obtain ⟨encoded', h₁'⟩ := outcome'
      cases hfirst with
      | error hfault => exact .error hfault
      | ok hterm =>
          have hrest : Parallel Eq (List.Forall₂ (Term.Alike twins.correspondence))
              (h₁.encodeAll overrides rest).1 (h₁'.encodeAll overrides' rest).1 :=
            encodeAll_alike rest hgrows hgrows'
          exact hrest.map fun _ _ hterms => .cons hterm hterms

end

/-- Alike terms without unknowns are rendered the same. -/
theorem render_alike {term term' : Term} (halike : Term.Alike twins.correspondence term term')
    (hground : term.isGround) : g.render term = g'.render term' := by
  revert hground
  refine Term.Alike.inductionOn halike ?_ ?_ ?_
  · rintro a b ⟨text, ha, hb⟩ -
    rw [render, render, ha, hb]
  · intro u v _ hground
    simp [Term.isGround_iff] at hground
  · intro items items' _ ih hground
    rw [Term.isGround_seq_iff] at hground
    have hsame : List.Forall₂ (fun item item' => g.render item = g'.render item') items items' :=
      ((List.forall₂_and_left ..).mpr ⟨hground, ih⟩).imp fun _ _ hitem => hitem.2 hitem.1
    cases hsame with
    | nil => rw [render, render]
    | cons hhead hrest =>
        have hrendered := renderAll_eq_of_forall₂ hrest
        cases hrest with
        | nil => rw [render, render, hhead]
        | cons => rw [render, render, hhead, hrendered]

end Twins

end Registry

end BuilderFields
