import BuilderFields.Proofs.Registry.Instance

/-!
# A registry over a whole run

A run is a list of calls on one registry, each answered by what the calls before it have left behind. Encoding reaches
the registry only through `intern`, also where it fails midway, so whatever interning keeps is kept by every call: no
text is stored twice, and the arena grows at its end. That makes the look-up of an atom and the look-up of a text
inverse to each other at every point of a run, and it makes an encoding repeatable: all it asks for is there already.
-/

namespace BuilderFields

namespace Registry

inductive Call
  | atom (text : String)
  | unknown (hint : String)
  | typeParameters (names : List String)
  | encode (overrides : Overrides) (type : TypeExpr)
  | render (term : Term)

inductive Reply
  | atom (atom : Atom)
  | unknown (unknown : Unknown)
  | overrides (overrides : Overrides)
  | term (outcome : Except EncodingFault Term)
  | text (outcome : Except RenderingFault String)

def answer (g : Registry) : Call → Reply × Registry
  | .atom text => (.atom (g.intern text).1, (g.intern text).2)
  | .unknown hint => (.unknown (g.freshUnknown hint).1, (g.freshUnknown hint).2)
  | .typeParameters names =>
    (.overrides (g.typeParameters names []).1, (g.typeParameters names []).2)
  | .encode overrides type =>
    (.term (g.encode overrides type).1, (g.encode overrides type).2)
  | .render term => (.text (g.render term), g)

def after (g : Registry) (calls : List Call) : Registry :=
  calls.foldl (fun g call => (g.answer call).2) g

def atoms (g : Registry) : List Atom :=
  g.texts.mapIdx g.atomAt

/-- The atom that a text has been given, if it has been given one. -/
def atomFor? (g : Registry) (text : String) : Option Atom :=
  (g.texts.idxOf? text).map fun place => g.atomAt place text

def freshUnknowns (g : Registry) : List String → List Unknown
  | [] => []
  | name :: rest => (g.freshUnknown name).1 :: (g.freshUnknown name).2.freshUnknowns rest

def drawnBy (g : Registry) : Call → List Unknown
  | .unknown hint => g.freshUnknowns [hint]
  | .typeParameters names => g.freshUnknowns names
  | .atom _ | .encode _ _ | .render _ => []

def drawn (g : Registry) : List Call → List Unknown
  | [] => []
  | call :: rest => g.drawnBy call ++ (g.answer call).2.drawn rest

variable {g g' : Registry}

/-! ### What interning keeps -/

section Kept

variable {P : Registry → Prop}

mutual

/-- Encoding changes a registry by interning alone, whether it succeeds or not. -/
theorem encode_of_intern (hintern : ∀ g text, P g → P (g.intern text).2) (overrides : Overrides)
    (type : TypeExpr) {g : Registry} (h : P g) : P (g.encode overrides type).2 := by
  cases type with
  | typeVar name =>
      rw [encode]
      cases overrides.get? name with
      | some u => exact h
      | none => exact hintern g name h
  | declared name arguments =>
      rw [encode]
      exact encodeAll_of_intern hintern overrides arguments (hintern g name h)
  | primitive name =>
      rw [encode]
      exact hintern g name h
  | array component =>
      rw [encode]
      cases component.canonicalText with
      | ok text => exact hintern g _ h
      | error value => exact h
  | wildcard kind => exact h
  | bounded kind bound => exact h
  | intersection bounds => exact h
  | scalar value => exact h

/-- What interning preserves, encoding preserves. -/
theorem encodeAll_of_intern (hintern : ∀ g text, P g → P (g.intern text).2)
    (overrides : Overrides) (types : List TypeExpr) {g : Registry} (h : P g) :
    P (g.encodeAll overrides types).2 := by
  cases types with
  | nil => exact h
  | cons first rest =>
      have hfirst := encode_of_intern hintern overrides first h
      rw [encodeAll]
      generalize g.encode overrides first = outcome at hfirst ⊢
      obtain ⟨encoded, g'⟩ := outcome
      cases encoded with
      | error fault => exact hfirst
      | ok term => exact encodeAll_of_intern hintern overrides rest hfirst

end

end Kept

/-- Interning stores no text twice. -/
theorem nodup_intern (g : Registry) (text : String) (h : g.texts.Nodup) :
    (g.intern text).2.texts.Nodup := by
  unfold intern
  split
  · exact h
  · rename_i hnew
    have hfree := List.idxOf?_eq_none_iff.mp hnew
    refine List.nodup_append.mpr ⟨h, List.nodup_singleton text, fun other hother last hlast => ?_⟩
    rw [List.mem_singleton.mp hlast]
    exact fun heq => hfree (heq ▸ hother)

theorem issued_intern (g : Registry) (text : String) : (g.intern text).2.issued = g.issued := by
  unfold intern
  split <;> rfl

theorem issued_encode (g : Registry) (overrides : Overrides) (type : TypeExpr) :
    (g.encode overrides type).2.issued = g.issued :=
  encode_of_intern (fun g' text h => (issued_intern g' text).trans h) overrides type rfl

/-! ### Drawing unknowns -/

/-- Fresh unknowns are numbered on from what was issued. -/
theorem handles_freshUnknowns (g : Registry) (names : List String) :
    (g.freshUnknowns names).map Unknown.handle =
      (List.range' g.issued names.length).map Nat.cast := by
  induction names generalizing g with
  | nil => rfl
  | cons name rest ih => simp [freshUnknowns, freshUnknown, ih, List.range'_succ]

theorem length_freshUnknowns (g : Registry) (names : List String) :
    (g.freshUnknowns names).length = names.length := by
  simpa using congrArg List.length (g.handles_freshUnknowns names)

/-- Declaring type parameters draws an unknown for each name, and a name keeps the last one drawn for it. -/
theorem typeParameters_eq (g : Registry) (names : List String) (known : Overrides) :
    g.typeParameters names known =
      (Entries.putAll known (names.zip (g.freshUnknowns names)),
        { g with issued := g.issued + names.length }) := by
  induction names generalizing g known with
  | nil => rfl
  | cons name rest ih =>
      rw [typeParameters, freshUnknowns, List.zip_cons_cons, Entries.putAll_cons]
      simp [freshUnknown, ih, Nat.add_right_comm, Nat.add_assoc]

/-! ### One call -/

/-- No call forgets a text. -/
theorem grows_answer (g : Registry) (call : Call) : g.Grows (g.answer call).2 := by
  cases call with
  | atom text => exact g.grows_intern text
  | unknown hint => exact g.grows_freshUnknown hint
  | typeParameters names => exact g.grows_typeParameters names []
  | encode overrides type => exact g.grows_encode overrides type
  | render term => exact .refl g

theorem nodup_answer (call : Call) (h : g.texts.Nodup) : (g.answer call).2.texts.Nodup := by
  cases call with
  | atom text => exact g.nodup_intern text h
  | unknown hint => exact h
  | typeParameters names => simpa [answer, typeParameters_eq] using h
  | encode overrides type => exact encode_of_intern nodup_intern overrides type h
  | render term => exact h

/-- The unknowns that a call draws are counted as issued. -/
theorem issued_answer (g : Registry) (call : Call) :
    (g.answer call).2.issued = g.issued + (g.drawnBy call).length := by
  cases call with
  | atom text => exact g.issued_intern text
  | unknown hint => rfl
  | typeParameters names => simp [answer, typeParameters_eq, drawnBy, length_freshUnknowns]
  | encode overrides type => exact g.issued_encode overrides type
  | render term => rfl

theorem handles_drawnBy (g : Registry) (call : Call) :
    (g.drawnBy call).map Unknown.handle =
      (List.range' g.issued (g.drawnBy call).length).map Nat.cast := by
  cases call with
  | unknown hint => exact g.handles_freshUnknowns [hint]
  | typeParameters names =>
      rw [drawnBy, length_freshUnknowns]
      exact g.handles_freshUnknowns names
  | atom text => rfl
  | encode overrides type => rfl
  | render term => rfl

/-! ### Encoding again -/

mutual

/-- What has been encoded once is encoded to the same term, or fails in the same way, and stores nothing. -/
theorem Grows.encode_eq {g g' : Registry} {overrides : Overrides} {type : TypeExpr}
    (h : (g.encode overrides type).2.Grows g') :
    g'.encode overrides type = ((g.encode overrides type).1, g') := by
  cases type with
  | typeVar name =>
      rw [encode] at h ⊢
      rw [encode]
      cases hname : overrides.get? name with
      | some u => rfl
      | none =>
          simp only [hname] at h ⊢
          rw [h.intern_eq]
  | declared name arguments =>
      rw [encode] at h ⊢
      rw [encode]
      have harguments : (encodeAll overrides arguments (g.intern name).2).2.Grows g' := h
      have hhead := (encodeAll_spec overrides arguments (g.intern name).2).1.trans harguments
      simp only [hhead.intern_eq, harguments.encodeAll_eq]
  | primitive name =>
      rw [encode] at h ⊢
      rw [encode, h.intern_eq]
  | array component =>
      rw [encode] at h ⊢
      rw [encode]
      cases hwritten : component.canonicalText with
      | ok text =>
          simp only [hwritten] at h ⊢
          rw [h.intern_eq]
      | error value => rfl
  | wildcard kind => rw [encode, encode]
  | bounded kind bound => rw [encode, encode]
  | intersection bounds => rw [encode, encode]
  | scalar value => rw [encode, encode]

/-- Types that were encoded are encoded the same later on, and nothing is stored for them. -/
theorem Grows.encodeAll_eq {g g' : Registry} {overrides : Overrides} {types : List TypeExpr}
    (h : (g.encodeAll overrides types).2.Grows g') :
    g'.encodeAll overrides types = ((g.encodeAll overrides types).1, g') := by
  cases types with
  | nil => rw [encodeAll, encodeAll]
  | cons first rest =>
      have hagain : (g.encode overrides first).2.Grows g' →
          g'.encode overrides first = ((g.encode overrides first).1, g') := Grows.encode_eq
      rw [encodeAll] at h ⊢
      rw [encodeAll]
      generalize g.encode overrides first = outcome at h hagain ⊢
      obtain ⟨encoded, g₁⟩ := outcome
      cases encoded with
      | error fault => rw [hagain h]
      | ok term =>
          have hgrows := (encodeAll_spec overrides rest g₁).1.trans h
          rw [hagain hgrows]
          simp only [h.encodeAll_eq]

end

/-! ### A run -/

theorem after_append (g : Registry) (calls later : List Call) :
    g.after (calls ++ later) = (g.after calls).after later :=
  List.foldl_append

theorem grows_after (g : Registry) (calls : List Call) : g.Grows (g.after calls) := by
  induction calls generalizing g with
  | nil => exact .refl g
  | cons call rest ih => exact (g.grows_answer call).trans (ih _)

theorem nodup_after (calls : List Call) (h : g.texts.Nodup) : (g.after calls).texts.Nodup := by
  induction calls generalizing g with
  | nil => exact h
  | cons call rest ih => exact ih (nodup_answer call h)

/-- The unknowns of a run are numbered in the order in which they are drawn. -/
theorem handles_drawn (g : Registry) (calls : List Call) :
    (g.drawn calls).map Unknown.handle =
      (List.range' g.issued (g.drawn calls).length).map Nat.cast := by
  induction calls generalizing g with
  | nil => rfl
  | cons call rest ih =>
      rw [drawn, List.map_append, ih, handles_drawnBy, issued_answer, ← List.map_append,
        List.length_append]
      congr 1
      simp

/-- No unknown is drawn twice. -/
theorem nodup_drawn (g : Registry) (calls : List Call) : (g.drawn calls).Nodup := by
  refine List.Nodup.of_map Unknown.handle ?_
  rw [handles_drawn]
  exact List.Nodup.map (fun place other heq => Int.ofNat.inj heq) List.nodup_range'

/-- The look-up by text is the inverse of the look-up by atom. -/
theorem atomFor?_eq_some_iff (h : g.texts.Nodup) {text : String} {atom : Atom} :
    g.atomFor? text = some atom ↔ g.textOf? atom = some text := by
  rw [atomFor?, Option.map_eq_some_iff, textOf?_eq_some_iff]
  constructor
  · rintro ⟨place, hplace, rfl⟩
    obtain ⟨hlt, heq, -⟩ := List.idxOf?_eq_some_iff.mp hplace
    refine ⟨⟨rfl, Int.natCast_nonneg place⟩, ?_, rfl⟩
    rw [atomAt, Int.toNat_natCast, List.getElem?_eq_getElem hlt, heq]
  · rintro ⟨⟨harena, hnonneg⟩, hfound, hlabel⟩
    obtain ⟨hlt, heq⟩ := List.getElem?_eq_some_iff.mp hfound
    refine ⟨atom.handle.toNat,
      List.idxOf?_eq_some_iff.mpr ⟨hlt, heq, fun other hother hsame => ?_⟩, ?_⟩
    · -- No text is stored twice, so no earlier place has it.
      exact Nat.ne_of_lt hother (h.getElem_inj_iff.mp (hsame.trans heq.symm))
    · rw [atomAt, Int.toNat_of_nonneg hnonneg, ← harena, hlabel]

theorem isSome_atomFor?_iff {text : String} : (g.atomFor? text).isSome ↔ text ∈ g.texts := by
  rw [atomFor?, Option.isSome_map, List.isSome_idxOf?]

theorem isSome_textOf?_iff {atom : Atom} : (g.textOf? atom).isSome ↔ atom ∈ g.atoms := by
  simp only [Option.isSome_iff_exists, textOf?_eq_some_iff, atoms, List.mem_mapIdx]
  constructor
  · rintro ⟨text, ⟨harena, hnonneg⟩, hfound, hlabel⟩
    obtain ⟨hlt, heq⟩ := List.getElem?_eq_some_iff.mp hfound
    exact ⟨_, hlt, by rw [heq, atomAt, Int.toNat_of_nonneg hnonneg, ← harena, hlabel]⟩
  · rintro ⟨place, hlt, rfl⟩
    exact ⟨g.texts[place], ⟨rfl, Int.natCast_nonneg place⟩, by simp [atomAt], rfl⟩

theorem handle_of_getElem?_atoms {place : Nat} {atom : Atom} (h : g.atoms[place]? = some atom) :
    atom.handle = place := by
  rw [atoms, List.getElem?_mapIdx, Option.map_eq_some_iff] at h
  obtain ⟨text, -, rfl⟩ := h
  rfl

theorem Grows.atoms_isPrefix (h : g.Grows g') : g.atoms <+: g'.atoms := by
  obtain ⟨later, htexts⟩ := h.texts
  rw [atoms, atoms, ← htexts, List.mapIdx_append]
  have hsame : g'.atomAt = g.atomAt := by
    funext place text
    rw [atomAt, atomAt, h.arena]
  rw [hsame]
  exact List.prefix_append _ _

/-- What can be relied on at the end of a run, for every call on the way to it. -/
structure Coherent (start : Registry) (calls : List Call) : Prop where
  handle : ∀ (place : Nat) (atom : Atom),
    (start.after calls).atoms[place]? = some atom → atom.handle = place
  inverse : ∀ text atom,
    (start.after calls).atomFor? text = some atom ↔ (start.after calls).textOf? atom = some text
  text_mem : ∀ text, ((start.after calls).atomFor? text).isSome ↔ text ∈ (start.after calls).texts
  atom_mem : ∀ atom, ((start.after calls).textOf? atom).isSome ↔ atom ∈ (start.after calls).atoms
  grows : ∀ earlier later, calls = earlier ++ later →
    (start.after earlier).atoms <+: (start.after calls).atoms
  /-- An atom that was handed out stands for the text that it was asked for. -/
  interned : ∀ earlier text later, calls = earlier ++ .atom text :: later →
    ∃ atom, ((start.after earlier).answer (.atom text)).1 = .atom atom ∧
      (start.after calls).textOf? atom = some text
  /-- The atoms of a term that was handed out are the registry's own. -/
  encoded : ∀ earlier overrides type later term,
    calls = earlier ++ .encode overrides type :: later →
    ((start.after earlier).answer (.encode overrides type)).1 = .term (.ok term) →
    (start.after calls).Holds term
  numbered : (start.drawn calls).map Unknown.handle =
    (List.range (start.drawn calls).length).map Nat.cast
  nodup : (start.drawn calls).Nodup
  declared : ∀ earlier names later, calls = earlier ++ .typeParameters names :: later →
    ((start.after earlier).answer (.typeParameters names)).1 =
      .overrides (Entries.ofList
        (names.zip ((start.after earlier).drawnBy (.typeParameters names))))
  /-- The second of two equal encodings answers as the first, and stores nothing. -/
  repeated : ∀ first overrides type between last,
    calls = first ++ .encode overrides type :: between ++ .encode overrides type :: last →
    (start.after (first ++ .encode overrides type :: between)).answer (.encode overrides type) =
      (((start.after first).answer (.encode overrides type)).1,
        start.after (first ++ .encode overrides type :: between))

/-- **Registries are coherent.** Whatever is asked of a registry, and in whatever order, the arena is numbered from
its beginning and only grows at its end, atoms and texts look each other up, unknowns are numbered as they are drawn,
and an encoding can be repeated at no cost. -/
theorem coherent_run (arena : Nat) (calls : List Call) : Coherent (fresh arena) calls := by
  have hnodup : ((fresh arena).after calls).texts.Nodup := nodup_after calls List.nodup_nil
  have hlater : ∀ earlier later, calls = earlier ++ later →
      ((fresh arena).after earlier).Grows ((fresh arena).after calls) := by
    rintro earlier later rfl
    rw [after_append]
    exact grows_after _ later
  have hafter : ∀ earlier call later, calls = earlier ++ call :: later →
      (((fresh arena).after earlier).answer call).2.Grows ((fresh arena).after calls) := by
    rintro earlier call later rfl
    rw [after_append]
    exact grows_after _ later
  have hnumbered := handles_drawn (fresh arena) calls
  rw [show (fresh arena).issued = 0 from rfl, ← List.range_eq_range'] at hnumbered
  refine {
    handle := fun place atom => handle_of_getElem?_atoms
    inverse := fun text atom => atomFor?_eq_some_iff hnodup
    text_mem := fun text => isSome_atomFor?_iff
    atom_mem := fun atom => isSome_textOf?_iff
    grows := fun earlier later h => (hlater earlier later h).atoms_isPrefix
    interned := fun earlier text later h => ⟨_, rfl, ?_⟩
    encoded := fun earlier overrides type later term h hterm => ?_
    numbered := hnumbered
    nodup := nodup_drawn _ calls
    declared := fun earlier names later _ => ?_
    repeated := fun first overrides type between last _ => ?_ }
  · exact (hafter earlier _ later h).textOf? (textOf?_intern _ text)
  · have hok : (((fresh arena).after earlier).encode overrides type).1 = .ok term := by
      simpa [answer] using hterm
    exact (holds_encode hok).grows (hafter earlier _ later h)
  · simp only [answer, typeParameters_eq]
    rfl
  · rw [after_append]
    have hgrows := grows_after (((fresh arena).after first).encode overrides type).2 between
    simp only [answer, after, List.foldl_cons] at hgrows ⊢
    rw [hgrows.encode_eq]

end Registry

end BuilderFields
