import BuilderFields.Proofs.Registry.Calls
import BuilderFields.Registry.Tables

/-!
# Tables answer as the registry does

The three structures of the tables are written apart from each other, and the registry has them all from the texts that
it stores. They agree nevertheless: whatever calls were made of both, the tables hold the atoms and the look-ups of the
registry, and answer the next call as it does. What holds of the registry over a whole run is therefore true of the
tables as well, so they look each other up.
-/

namespace BuilderFields

namespace Registry

variable {g : Registry} {text : String}

/-! ### What a new text adds -/

theorem intern_of_atomFor?_eq_some {atom : Atom} (h : g.atomFor? text = some atom) :
    g.intern text = (atom, g) := by
  obtain ⟨place, hplace, rfl⟩ := Option.map_eq_some_iff.mp h
  rw [intern, hplace]

theorem intern_of_atomFor?_eq_none (h : g.atomFor? text = none) :
    g.intern text =
      (g.atomAt g.texts.length text, { g with texts := g.texts ++ [text] }) := by
  rw [intern, Option.map_eq_none_iff.mp h]

theorem atoms_of_new (text : String) :
    atoms { g with texts := g.texts ++ [text] } = g.atoms ++ [g.atomAt g.texts.length text] := by
  have hsame : atomAt { g with texts := g.texts ++ [text] } = g.atomAt := rfl
  rw [atoms, atoms, hsame, List.mapIdx_append]
  simp

/-- The new text is looked up where it was stored, and every other text where it was. -/
theorem atomFor?_of_new (h : g.atomFor? text = none) (other : String) :
    atomFor? { g with texts := g.texts ++ [text] } other =
      if other = text then some (g.atomAt g.texts.length text) else g.atomFor? other := by
  have hfree : g.texts.findIdx? (· == text) = none := Option.map_eq_none_iff.mp h
  unfold atomFor? List.idxOf?
  rw [List.findIdx?_append]
  by_cases hother : other = text
  · rw [if_pos hother, hother, hfree]
    simp [atomAt]
  · have hne : (text == other) = false := by simpa using Ne.symm hother
    rw [if_neg hother]
    simp [hne, atomAt]

/-- The new atom has the new text, and every other atom the text that it had. -/
theorem textOf?_of_new (text : String) (atom : Atom) :
    textOf? { g with texts := g.texts ++ [text] } atom =
      if atom = g.atomAt g.texts.length text then some text else g.textOf? atom := by
  by_cases hnew : atom = g.atomAt g.texts.length text
  · rw [if_pos hnew, hnew, textOf?_eq_some_iff]
    exact ⟨⟨rfl, Int.natCast_nonneg _⟩, by simp [atomAt], rfl⟩
  · rw [if_neg hnew]
    ext found
    rw [textOf?_eq_some_iff, textOf?_eq_some_iff]
    apply and_congr_right
    rintro ⟨harena, hnonneg⟩
    apply and_congr_left
    intro hlabel
    rw [List.getElem?_append]
    by_cases hplace : atom.handle.toNat < g.texts.length
    · rw [if_pos hplace]
    · -- At the place of the new text the atom would be the new one.
      have hnone : g.texts[atom.handle.toNat]? = none := List.getElem?_eq_none (Nat.le_of_not_lt hplace)
      rw [if_neg hplace, hnone]
      refine iff_of_false (fun hfound => hnew ?_) (by simp)
      obtain ⟨hlt, heq⟩ := List.getElem?_eq_some_iff.mp hfound
      rw [List.length_singleton] at hlt
      have hhandle : atom.handle = g.texts.length := by omega
      rw [List.getElem_singleton] at heq
      cases atom
      simp_all [atomAt]

end Registry

namespace Tables

/-! ### Tables of a registry -/

structure Mirrors (t : Tables) (g : Registry) : Prop where
  arena : t.arena = g.arena
  atoms : t.atoms = g.atoms
  atomOf : ∀ text, t.atomOf.get? text = g.atomFor? text
  textOf : ∀ atom, t.textOf.get? atom = g.textOf? atom
  issued : t.issued = g.issued

variable {t : Tables} {g : Registry}

theorem mirrors_fresh (arena : Nat) : (fresh arena).Mirrors (Registry.fresh arena) where
  arena := rfl
  atoms := rfl
  atomOf _ := rfl
  textOf atom := by simp [fresh, Registry.fresh, Registry.textOf?]
  issued := rfl

theorem Mirrors.nextAtom_eq (h : t.Mirrors g) (text : String) :
    t.nextAtom text = g.atomAt g.texts.length text := by
  have hlength : t.atoms.length = g.texts.length := by
    rw [h.atoms, Registry.atoms, List.length_mapIdx]
  rw [nextAtom, Registry.atomAt, h.arena, hlength]

/-- A text that is stored already is found, and a new one is stored in all three tables. -/
theorem Mirrors.intern (h : t.Mirrors g) (text : String) :
    (t.intern text).1 = (g.intern text).1 ∧ (t.intern text).2.Mirrors (g.intern text).2 := by
  have hlookup := h.atomOf text
  cases hfound : g.atomFor? text with
  | some atom =>
      rw [hfound] at hlookup
      rw [Tables.intern, hlookup, Registry.intern_of_atomFor?_eq_some hfound]
      exact ⟨rfl, h⟩
  | none =>
      rw [hfound] at hlookup
      rw [Tables.intern, hlookup, Registry.intern_of_atomFor?_eq_none hfound]
      refine ⟨h.nextAtom_eq text, ?_⟩
      exact {
        arena := h.arena
        atoms := by rw [allocate, Registry.atoms_of_new, h.nextAtom_eq, h.atoms]
        atomOf := fun other => by
          rw [allocate, Entries.get?_put, Registry.atomFor?_of_new hfound, h.nextAtom_eq, h.atomOf]
        textOf := fun atom => by
          rw [allocate, Entries.get?_put, Registry.textOf?_of_new, h.nextAtom_eq, h.textOf]
        issued := h.issued }

theorem Mirrors.freshUnknown (h : t.Mirrors g) (hint : String) :
    (t.freshUnknown hint).1 = (g.freshUnknown hint).1 ∧
      (t.freshUnknown hint).2.Mirrors (g.freshUnknown hint).2 := by
  constructor
  · rw [Tables.freshUnknown, Registry.freshUnknown, h.arena, h.issued]
  · exact { h with issued := congrArg (· + 1) h.issued }

theorem Mirrors.typeParameters (h : t.Mirrors g) (names : List String) (known : Overrides) :
    (t.typeParameters names known).1 = (g.typeParameters names known).1 ∧
      (t.typeParameters names known).2.Mirrors (g.typeParameters names known).2 := by
  induction names generalizing t g known with
  | nil => exact ⟨rfl, h⟩
  | cons name rest ih =>
      obtain ⟨hunknown, hnext⟩ := h.freshUnknown name
      rw [Tables.typeParameters, Registry.typeParameters]
      dsimp only
      rw [hunknown]
      exact ih hnext _

/-! ### Encoding -/

-- Both ended in the same way, and the tables are still those of the registry.
inductive Alongside {α : Type} :
    EStateM.Result EncodingFault Tables α → Except EncodingFault α × Registry → Prop
  | ok {value t g} (h : Mirrors t g) : Alongside (.ok value t) (.ok value, g)
  | error {fault t g} (h : Mirrors t g) : Alongside (.error fault t) (.error fault, g)

theorem alongside_constant (h : t.Mirrors g) (text : String) :
    Alongside (constant text t) (.ok (.atom (g.intern text).1), (g.intern text).2) := by
  obtain ⟨hatom, hmirrors⟩ := h.intern text
  rw [← hatom]
  exact .ok hmirrors

mutual

/-- Encoding does the same to the tables as to the registry, also where it stops half-way. -/
theorem Mirrors.encode (overrides : Overrides) (type : TypeExpr) {t : Tables} {g : Registry}
    (h : t.Mirrors g) :
    Alongside (Tables.encode overrides type t) (g.encode overrides type) := by
  cases type with
  | typeVar name =>
      rw [Tables.encode, Registry.encode]
      cases overrides.get? name with
      | some unknown => exact .ok h
      | none => exact alongside_constant h name
  | declared name arguments =>
      obtain ⟨hhead, hmirrors⟩ := h.intern name
      have harguments := Mirrors.encodeAll overrides arguments hmirrors
      rw [Tables.encode, Registry.encode]
      simp only [bind, EStateM.bind, Tables.constant, hhead]
      generalize Tables.encodeAll overrides arguments (t.intern name).2 = result at harguments ⊢
      generalize (g.intern name).2.encodeAll overrides arguments = outcome at harguments ⊢
      cases harguments with
      | ok hafter => exact .ok hafter
      | error hafter => exact .error hafter
  | primitive name =>
      rw [Tables.encode, Registry.encode]
      exact alongside_constant h name
  | array component =>
      rw [Tables.encode, Registry.encode]
      cases component.canonicalText with
      | ok text => exact alongside_constant h _
      | error value => exact .error h
  | wildcard kind =>
      rw [Tables.encode, Registry.encode]
      exact .error h
  | bounded kind bound =>
      rw [Tables.encode, Registry.encode]
      exact .error h
  | intersection bounds =>
      rw [Tables.encode, Registry.encode]
      exact .error h
  | scalar value =>
      rw [Tables.encode, Registry.encode]
      exact .error h

theorem Mirrors.encodeAll (overrides : Overrides) (types : List TypeExpr) {t : Tables}
    {g : Registry} (h : t.Mirrors g) :
    Alongside (Tables.encodeAll overrides types t) (g.encodeAll overrides types) := by
  cases types with
  | nil =>
      rw [Tables.encodeAll, Registry.encodeAll]
      exact .ok h
  | cons first rest =>
      have hfirst := Mirrors.encode overrides first h
      rw [Tables.encodeAll, Registry.encodeAll]
      simp only [bind, EStateM.bind]
      generalize Tables.encode overrides first t = result at hfirst ⊢
      generalize g.encode overrides first = outcome at hfirst ⊢
      cases hfirst with
      | error hafter => exact .error hafter
      | @ok term t' g' hafter =>
          have hrest := Mirrors.encodeAll overrides rest hafter
          dsimp only
          generalize Tables.encodeAll overrides rest t' = result at hrest ⊢
          generalize g'.encodeAll overrides rest = outcome at hrest ⊢
          cases hrest with
          | ok hlast => exact .ok hlast
          | error hlast => exact .error hlast

end

/-! ### Rendering -/

mutual

/-- A term is rendered the same from the tables. -/
theorem Mirrors.render_eq (h : t.Mirrors g) (term : Term) : t.render term = g.render term := by
  match term with
  | .atom atom =>
      have hlookup := h.textOf atom
      cases htext : g.textOf? atom with
      | some text => simp [Tables.render, Registry.render, hlookup, htext]
      | none => simp [Tables.render, Registry.render, hlookup, htext]
  | .unknown unknown => rw [Tables.render, Registry.render]
  | .seq [] => rw [Tables.render, Registry.render]
  | .seq [head] =>
      rw [Tables.render, Registry.render, Tables.renderAll, h.render_eq head]
      cases g.render head <;> rfl
  | .seq (head :: first :: rest) =>
      rw [Tables.render, Registry.render, h.render_eq head, h.renderAll_eq (first :: rest)]
      cases g.render head with
      | error fault => rfl
      | ok name => cases g.renderAll (first :: rest) <;> rfl

theorem Mirrors.renderAll_eq (h : t.Mirrors g) (terms : List Term) :
    t.renderAll terms = g.renderAll terms := by
  match terms with
  | [] => rw [Tables.renderAll, Registry.renderAll]
  | first :: rest =>
      rw [Tables.renderAll, Registry.renderAll, h.render_eq first, h.renderAll_eq rest]
      cases g.render first with
      | error fault => rfl
      | ok text => cases g.renderAll rest <;> rfl

end

/-! ### Calls -/

def answer (t : Tables) : Registry.Call → Registry.Reply × Tables
  | .atom text => (.atom (t.intern text).1, (t.intern text).2)
  | .unknown hint => (.unknown (t.freshUnknown hint).1, (t.freshUnknown hint).2)
  | .typeParameters names =>
    (.overrides (t.typeParameters names []).1, (t.typeParameters names []).2)
  | .encode overrides type =>
    match encode overrides type t with
    | .ok term t => (.term (.ok term), t)
    | .error fault t => (.term (.error fault), t)
  | .render term => (.text (t.render term), t)

def after (t : Tables) (calls : List Registry.Call) : Tables :=
  calls.foldl (fun t call => (t.answer call).2) t

/-- One call is answered alike, and keeps the tables those of the registry. -/
theorem Mirrors.answer (h : t.Mirrors g) (call : Registry.Call) :
    (t.answer call).1 = (g.answer call).1 ∧ (t.answer call).2.Mirrors (g.answer call).2 := by
  cases call with
  | atom text =>
      obtain ⟨hatom, hmirrors⟩ := h.intern text
      exact ⟨congrArg _ hatom, hmirrors⟩
  | unknown hint =>
      obtain ⟨hunknown, hmirrors⟩ := h.freshUnknown hint
      exact ⟨congrArg _ hunknown, hmirrors⟩
  | typeParameters names =>
      obtain ⟨hoverrides, hmirrors⟩ := h.typeParameters names []
      exact ⟨congrArg _ hoverrides, hmirrors⟩
  | encode overrides type =>
      have hencoded := Mirrors.encode overrides type h
      simp only [Tables.answer, Registry.answer]
      generalize Tables.encode overrides type t = result at hencoded ⊢
      generalize g.encode overrides type = outcome at hencoded ⊢
      cases hencoded with
      | ok hafter => exact ⟨rfl, hafter⟩
      | error hafter => exact ⟨rfl, hafter⟩
  | render term => exact ⟨congrArg _ (h.render_eq term), h⟩

/-- A run of calls keeps the tables in step with the registry. -/
theorem Mirrors.after (h : t.Mirrors g) (calls : List Registry.Call) :
    (t.after calls).Mirrors (g.after calls) := by
  induction calls generalizing t g with
  | nil => exact h
  | cons call rest ih => exact ih (h.answer call).2

/-- **Tables answer as the registry does**, whatever was asked of both before. -/
theorem answer_eq_after (arena : Nat) (calls : List Registry.Call) (call : Registry.Call) :
    (((fresh arena).after calls).answer call).1 =
        (((Registry.fresh arena).after calls).answer call).1 ∧
      (((fresh arena).after calls).answer call).2.Mirrors
        (((Registry.fresh arena).after calls).answer call).2 :=
  ((mirrors_fresh arena).after calls).answer call

structure Consistent (t : Tables) : Prop where
  handle : ∀ (place : Nat) (atom : Atom), t.atoms[place]? = some atom → atom.handle = place
  inverse : ∀ text atom, t.atomOf.get? text = some atom ↔ t.textOf.get? atom = some text
  stored : ∀ atom, (t.textOf.get? atom).isSome ↔ atom ∈ t.atoms

/-- The three tables contradict each other at no point of a run. -/
theorem consistent_after (arena : Nat) (calls : List Registry.Call) :
    ((fresh arena).after calls).Consistent := by
  have h := (mirrors_fresh arena).after calls
  have hnodup : ((Registry.fresh arena).after calls).texts.Nodup :=
    Registry.nodup_after calls List.nodup_nil
  refine {
    handle := fun place atom hatom => ?_
    inverse := fun text atom => ?_
    stored := fun atom => ?_ }
  · rw [h.atoms] at hatom
    exact Registry.handle_of_getElem?_atoms hatom
  · rw [h.atomOf, h.textOf]
    exact Registry.atomFor?_eq_some_iff hnodup
  · rw [h.textOf, h.atoms]
    exact Registry.isSome_textOf?_iff

end Tables

end BuilderFields
