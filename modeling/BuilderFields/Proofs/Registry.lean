import BuilderFields.Proofs.Term.Run
import BuilderFields.Registry
import Mathlib.Data.List.Infix

/-!
# A registry renders what it encoded

A registry only grows, so an atom keeps its text whatever is encoded later. A term is held by a registry when its
atoms are the registry's own and none of its sequences is empty: that is what encoding gives, what taking terms
apart and exchanging their items keeps, and what rendering needs once no unknown is left.
-/

namespace BuilderFields

namespace Registry

structure Grows (g g' : Registry) : Prop where
  arena : g'.arena = g.arena
  texts : g.texts <+: g'.texts
  issued : g.issued ≤ g'.issued

theorem Grows.refl (g : Registry) : g.Grows g :=
  ⟨rfl, List.prefix_rfl, Nat.le_refl _⟩

theorem Grows.trans {g g' g'' : Registry} (h : g.Grows g') (h' : g'.Grows g'') : g.Grows g'' :=
  ⟨h'.arena.trans h.arena, h.texts.trans h'.texts, h.issued.trans h'.issued⟩

theorem textOf?_eq_some_iff {g : Registry} {atom : Atom} {text : String} :
    g.textOf? atom = some text ↔
      (atom.arena = g.arena ∧ 0 ≤ atom.handle) ∧
        g.texts[atom.handle.toNat]? = some text ∧ text = atom.label := by
  unfold textOf?
  split
  · rename_i hplace
    simp [hplace, Option.filter_eq_some_iff]
  · rename_i hplace
    simp [hplace]

/-- A stored text stays stored under its atom. -/
theorem Grows.textOf? {g g' : Registry} (h : g.Grows g') {atom : Atom} {text : String}
    (htext : g.textOf? atom = some text) : g'.textOf? atom = some text := by
  rw [textOf?_eq_some_iff] at htext ⊢
  obtain ⟨hplace, hfound, hlabel⟩ := htext
  refine ⟨h.arena ▸ hplace, ?_, hlabel⟩
  obtain ⟨later, heq⟩ := h.texts
  obtain ⟨hlt, -⟩ := List.getElem?_eq_some_iff.mp hfound
  rw [← heq, List.getElem?_append_left hlt, hfound]

theorem textOf?_atomAt {g : Registry} {place : Nat} {text : String}
    (h : g.texts[place]? = some text) : g.textOf? (g.atomAt place text) = some text :=
  textOf?_eq_some_iff.mpr ⟨⟨rfl, Int.natCast_nonneg place⟩, by simpa [atomAt] using h, rfl⟩

theorem grows_intern (g : Registry) (text : String) : g.Grows (g.intern text).2 := by
  unfold intern
  split
  · exact .refl g
  · exact ⟨rfl, List.prefix_append _ _, Nat.le_refl _⟩

theorem textOf?_intern (g : Registry) (text : String) :
    (g.intern text).2.textOf? (g.intern text).1 = some text := by
  unfold intern
  split
  · rename_i place hplace
    obtain ⟨hlt, heq, -⟩ := List.idxOf?_eq_some_iff.mp hplace
    exact textOf?_atomAt (by rw [List.getElem?_eq_getElem hlt, heq])
  · exact textOf?_eq_some_iff.mpr ⟨⟨rfl, Int.natCast_nonneg _⟩, by simp [atomAt], rfl⟩

theorem grows_freshUnknown (g : Registry) (hint : String) : g.Grows (g.freshUnknown hint).2 :=
  ⟨rfl, List.prefix_rfl, Nat.le_succ _⟩

theorem grows_typeParameters (g : Registry) (names : List String) (known : Overrides) :
    g.Grows (g.typeParameters names known).2 := by
  induction names generalizing g known with
  | nil => exact .refl g
  | cons name rest ih =>
      rw [typeParameters]
      exact (g.grows_freshUnknown name).trans (ih _ _)

inductive Holds (g : Registry) : Term → Prop
  | atom {a text} (htext : g.textOf? a = some text) : Holds g (.atom a)
  | unknown (u) : Holds g (.unknown u)
  | seq {items} (hne : items ≠ []) (hitems : ∀ item ∈ items, Holds g item) : Holds g (.seq items)

theorem Holds.grows {g g' : Registry} (hgrows : g.Grows g') {term : Term} (h : g.Holds term) :
    g'.Holds term := by
  induction h with
  | atom htext => exact .atom (hgrows.textOf? htext)
  | unknown u => exact .unknown u
  | seq hne _ ih => exact .seq hne ih

theorem closed_holds (g : Registry) : Closed g.Holds where
  item := by
    intro items item hitems hitem
    cases hitems with
    | seq _ hall => exact hall item hitem
  exchange := by
    intro items others hlength hitems hothers
    cases hitems with
    | seq hne _ =>
        refine .seq ?_ hothers
        rintro rfl
        exact hne (List.eq_nil_of_length_eq_zero hlength.symm)

theorem Holds.of_value {g : Registry} {θ : Assignment} {term : Term} (h : g.Holds (θ.value term)) :
    ∀ u ∈ term.occurrences, g.Holds (θ u) := by
  induction term using Term.inductionOn with
  | atom a => simp
  | unknown u => simpa using h
  | seq items ih =>
      rw [Assignment.value_seq] at h
      intro u hu
      rw [Term.occurrences_seq, List.mem_flatMap] at hu
      obtain ⟨item, hitem, hu⟩ := hu
      exact ih item hitem (g.closed_holds.item h (List.mem_map_of_mem hitem)) u hu

/-- Held terms in the place of unknowns leave a term held. -/
theorem Holds.value {g : Registry} {θ : Assignment} {term : Term} (h : g.Holds term)
    (hθ : ∀ u ∈ term.occurrences, g.Holds (θ u)) : g.Holds (θ.value term) := by
  induction h with
  | atom htext =>
      rw [Assignment.value_atom]
      exact .atom htext
  | unknown u => simpa using hθ
  | seq hne _ ih =>
      rw [Assignment.value_seq]
      refine .seq (by simpa using hne) fun other hother => ?_
      obtain ⟨item, hitem, rfl⟩ := List.mem_map.mp hother
      refine ih item hitem fun u hu => hθ u ?_
      rw [Term.occurrences_seq]
      exact List.mem_flatMap.mpr ⟨item, hitem, hu⟩

theorem holds_intern (g : Registry) (text : String) :
    (g.intern text).2.Holds (.atom (g.intern text).1) :=
  .atom (g.textOf?_intern text)

theorem exists_of_map_eq_ok {ε α β : Type} {f : α → β} {x : Except ε α} {y : β}
    (h : x.map f = .ok y) : ∃ value, x = .ok value ∧ f value = y := by
  cases x with
  | error fault => cases h
  | ok value => exact ⟨value, rfl, by simpa [Except.map] using h⟩

mutual

/-- Encoding forgets no text, and the registry can render what it gives. -/
theorem encode_spec (overrides : Overrides) (type : TypeExpr) (g : Registry) :
    g.Grows (g.encode overrides type).2 ∧
      ∀ term, (g.encode overrides type).1 = .ok term →
        (g.encode overrides type).2.Holds term := by
  cases type with
  | typeVar name =>
      rw [encode]
      cases overrides.get? name with
      | some u =>
          refine ⟨.refl g, fun term h => ?_⟩
          cases h
          exact .unknown u
      | none =>
          refine ⟨g.grows_intern name, fun term h => ?_⟩
          cases h
          exact g.holds_intern name
  | declared name arguments =>
      obtain ⟨hgrows, hholds⟩ := encodeAll_spec overrides arguments (g.intern name).2
      rw [encode]
      refine ⟨(g.grows_intern name).trans hgrows, fun term h => ?_⟩
      obtain ⟨terms, hterms, rfl⟩ := exists_of_map_eq_ok h
      refine .seq (List.cons_ne_nil _ _) fun item hitem => ?_
      rcases List.mem_cons.mp hitem with rfl | hargument
      · exact (g.holds_intern name).grows hgrows
      · exact hholds terms hterms item hargument
  | primitive name =>
      rw [encode]
      refine ⟨g.grows_intern name, fun term h => ?_⟩
      cases h
      exact g.holds_intern name
  | array component =>
      rw [encode]
      cases component.canonicalText with
      | ok text =>
          refine ⟨g.grows_intern _, fun term h => ?_⟩
          cases h
          exact g.holds_intern _
      | error value => exact ⟨.refl g, fun term h => by cases h⟩
  | wildcard kind => exact ⟨.refl g, fun term h => by cases h⟩
  | bounded kind bound => exact ⟨.refl g, fun term h => by cases h⟩
  | intersection bounds => exact ⟨.refl g, fun term h => by cases h⟩
  | scalar value => exact ⟨.refl g, fun term h => by cases h⟩

theorem encodeAll_spec (overrides : Overrides) (types : List TypeExpr) (g : Registry) :
    g.Grows (g.encodeAll overrides types).2 ∧
      ∀ terms, (g.encodeAll overrides types).1 = .ok terms →
        ∀ term ∈ terms, (g.encodeAll overrides types).2.Holds term := by
  cases types with
  | nil =>
      refine ⟨.refl g, fun terms h term hterm => ?_⟩
      cases h
      cases hterm
  | cons first rest =>
      obtain ⟨hgrows, hholds⟩ := encode_spec overrides first g
      rw [encodeAll]
      generalize g.encode overrides first = outcome at hgrows hholds ⊢
      obtain ⟨encoded, g'⟩ := outcome
      cases encoded with
      | error fault => exact ⟨hgrows, fun terms h => by cases h⟩
      | ok term =>
          obtain ⟨hgrowsRest, hholdsRest⟩ := encodeAll_spec overrides rest g'
          refine ⟨hgrows.trans hgrowsRest, fun terms h other hother => ?_⟩
          obtain ⟨others, hothers, rfl⟩ := exists_of_map_eq_ok h
          rcases List.mem_cons.mp hother with rfl | hmem
          · exact (hholds other rfl).grows hgrowsRest
          · exact hholdsRest others hothers other hmem

end

theorem grows_encode (g : Registry) (overrides : Overrides) (type : TypeExpr) :
    g.Grows (g.encode overrides type).2 :=
  (encode_spec overrides type g).1

theorem holds_encode {g : Registry} {overrides : Overrides} {type : TypeExpr} {term : Term}
    (h : (g.encode overrides type).1 = .ok term) : (g.encode overrides type).2.Holds term :=
  (encode_spec overrides type g).2 term h

theorem exists_renderAll_eq_ok {g : Registry} {items : List Term}
    (h : ∀ item ∈ items, ∃ text, g.render item = .ok text) :
    ∃ texts, g.renderAll items = .ok texts := by
  induction items with
  | nil => exact ⟨[], by simp [renderAll]⟩
  | cons first rest ih =>
      rw [List.forall_mem_cons] at h
      obtain ⟨⟨text, hfirst⟩, hrest⟩ := h
      obtain ⟨texts, htexts⟩ := ih hrest
      exact ⟨text :: texts, by simp [renderAll, hfirst, htexts]⟩

/-- A held ground term can be rendered. -/
theorem exists_render_eq_ok {g : Registry} {term : Term} (h : g.Holds term)
    (hground : term.isGround) : ∃ text, g.render term = .ok text := by
  induction h with
  | @atom a text htext => exact ⟨text, by simp [render, htext]⟩
  | unknown u => simp [Term.isGround_iff] at hground
  | @seq items hne _ ih =>
      rw [Term.isGround_seq_iff] at hground
      have hitems : ∀ item ∈ items, ∃ text, g.render item = .ok text :=
        fun item hitem => ih item hitem (hground item hitem)
      match items, hne with
      | [head], _ => simpa [render] using hitems
      | head :: first :: rest, _ =>
          rw [List.forall_mem_cons] at hitems
          obtain ⟨⟨name, hname⟩, hrest⟩ := hitems
          obtain ⟨arguments, harguments⟩ := exists_renderAll_eq_ok hrest
          refine ⟨name ++ "<" ++ Text.commaJoin arguments ++ ">", ?_⟩
          rw [render, hname, harguments]

end Registry

end BuilderFields
