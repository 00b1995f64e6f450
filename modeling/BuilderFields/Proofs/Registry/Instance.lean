import BuilderFields.Proofs.Registry
import BuilderFields.Proofs.TypeExpr

/-!
# Instances of a type

A type with some of its variables replaced by terms is an instance of it. Encoding gives the instance that replaces
every declared type parameter by its unknown, and the atoms in it stay what they are while the registry grows. So an
assignment for the unknowns is a replacement for the names, and what is matched is told without unknowns.
-/

namespace BuilderFields

abbrev Replacement := String → Option Term

def Overrides.replacement (overrides : Overrides) : Replacement :=
  fun name => (overrides.get? name).map Term.unknown

structure Overrides.Declares (overrides : Overrides) (names : List String) : Prop where
  hint : ∀ {name u}, overrides.get? name = some u → u.hint = name
  isSome_iff : ∀ name, (overrides.get? name).isSome ↔ name ∈ names

namespace Overrides.Declares

variable {overrides : Overrides} {names : List String}

theorem put (h : overrides.Declares names) {name : String} {u : Unknown} (hu : u.hint = name) :
    Overrides.Declares (Entries.put overrides name u) (name :: names) where
  hint := by
    intro other v hv
    rw [Entries.get?_put] at hv
    split at hv
    · rename_i heq
      cases hv
      rw [hu, heq]
    · exact h.hint hv
  isSome_iff := by
    intro other
    rw [Entries.get?_put, List.mem_cons]
    split
    · rename_i heq
      simp [heq]
    · rename_i hne
      simp [hne, h.isSome_iff]

theorem of_typeParameters (h : overrides.Declares names) (g : Registry) (more : List String) :
    (g.typeParameters more overrides).1.Declares (more.reverse ++ names) := by
  induction more generalizing g overrides names with
  | nil => exact h
  | cons name rest ih =>
      rw [Registry.typeParameters, List.reverse_cons, List.append_assoc]
      have hput : Overrides.Declares (Entries.put overrides name (g.freshUnknown name).1)
          (name :: names) := h.put rfl
      exact ih hput _

/-- Exactly the declared names are replaced. -/
theorem isSome_replacement_iff (h : overrides.Declares names) (name : String) :
    (overrides.replacement name).isSome ↔ name ∈ names := by
  rw [← h.isSome_iff, replacement, Option.isSome_map]

/-- A replacement of the declared names comes from an assignment for their unknowns. -/
theorem exists_assignment (h : overrides.Declares names) {ρ : Replacement}
    (hown : ∀ name, (ρ name).isSome ↔ name ∈ names)
    (hground : ∀ name term, ρ name = some term → term.isGround) :
    ∃ θ : Assignment, θ.IsGround ∧ (fun name => (overrides.replacement name).map θ.value) = ρ := by
  refine ⟨fun u => (ρ u.hint).getD (.seq []), fun u => ?_, funext fun name => ?_⟩
  · dsimp only
    cases hu : ρ u.hint with
    | none => rfl
    | some term => exact hground _ term hu
  · have hdeclared := (h.isSome_iff name).trans (hown name).symm
    unfold replacement
    cases hname : overrides.get? name with
    | none =>
        rw [hname] at hdeclared
        have hfree : ρ name = none := by simpa using hdeclared
        rw [hfree, Option.map_none, Option.map_none]
    | some u =>
        rw [hname] at hdeclared
        obtain ⟨term, hterm⟩ := Option.isSome_iff_exists.mp (hdeclared.mp rfl)
        rw [Option.map_some, Option.map_some, Assignment.value_unknown, h.hint hname, hterm,
          Option.getD_some]

end Overrides.Declares

namespace Registry

section Stable

variable {g g' : Registry}

/-- An atom keeps its place, and asking for it again stores nothing. -/
theorem Grows.intern_eq {text : String} (h : (g.intern text).2.Grows g') :
    g'.intern text = ((g.intern text).1, g') := by
  obtain ⟨harena, ⟨later, htexts⟩, -⟩ := h
  unfold intern at harena htexts ⊢
  cases hplace : g.texts.idxOf? text with
  | some place =>
      simp only [hplace] at harena htexts ⊢
      have hstill : g'.texts.idxOf? text = some place := by
        rw [← htexts]
        obtain ⟨hlt, heq, hfirst⟩ := List.idxOf?_eq_some_iff.mp hplace
        refine List.idxOf?_eq_some_iff.mpr ⟨by rw [List.length_append]; omega, ?_, ?_⟩
        · rw [List.getElem_append_left hlt, heq]
        · intro other hother
          rw [List.getElem_append_left (hother.trans hlt)]
          exact hfirst other hother
      simp [hstill, atomAt, harena]
  | none =>
      simp only [hplace] at harena htexts ⊢
      have hstill : g'.texts.idxOf? text = some g.texts.length := by
        rw [← htexts]
        have hnew := List.idxOf?_eq_none_iff.mp hplace
        refine List.idxOf?_eq_some_iff.mpr ⟨by simp, by simp, ?_⟩
        intro other hother heq
        have hbefore : (g.texts ++ [text] ++ later)[other]? = some g.texts[other] := by
          rw [List.append_assoc, List.getElem?_append_left hother, List.getElem?_eq_getElem hother]
        have hsame : some text = some g.texts[other] := by
          rw [← heq, ← hbefore, List.getElem?_eq_getElem]
        exact hnew (Option.some.inj hsame ▸ List.getElem_mem hother)
      simp [hstill, atomAt, harena]

mutual

/-- A term that can be rendered is rendered the same later on. -/
theorem Grows.render_eq (h : g.Grows g') (term : Term) {text : String}
    (htext : g.render term = .ok text) : g'.render term = .ok text := by
  match term with
  | .atom a =>
      rw [render] at htext ⊢
      cases hfound : g.textOf? a with
      | some found => simpa [h.textOf? hfound, hfound] using htext
      | none => simp [hfound] at htext
  | .unknown u => simp [render] at htext
  | .seq [] => simp [render] at htext
  | .seq [head] =>
      rw [render] at htext ⊢
      exact h.render_eq head htext
  | .seq (head :: first :: rest) =>
      rw [render] at htext
      split at htext
      · cases htext
      · cases htext
      · rename_i name arguments hname harguments
        rw [render, h.render_eq head hname, h.renderAll_eq (first :: rest) harguments]
        exact htext

theorem Grows.renderAll_eq (h : g.Grows g') (terms : List Term) {texts : List String}
    (htexts : g.renderAll terms = .ok texts) : g'.renderAll terms = .ok texts := by
  match terms with
  | [] => simpa [renderAll] using htexts
  | first :: rest =>
      rw [renderAll] at htexts
      split at htexts
      · cases htexts
      · cases htexts
      · rename_i text others hfirst hrest
        rw [renderAll, h.render_eq first hfirst, h.renderAll_eq rest hrest]
        exact htexts

end

end Stable

def atomOf (g : Registry) (text : String) : Term :=
  .atom (g.intern text).1

mutual

/-- The term of a type with the replaced variables outside of arrays as they are replaced; everything else is the
registry's atom of its text. -/
def instantiate (g : Registry) (ρ : Replacement) : TypeExpr → Term
  | .typeVar name => (ρ name).getD (g.atomOf name)
  | .declared name arguments => .seq (g.atomOf name :: instantiateAll g ρ arguments)
  | .primitive name => g.atomOf name
  | .array component => g.atomOf (component.text ++ "[]")
  -- The other types have no term.
  | .wildcard _ | .bounded _ _ | .intersection _ | .scalar _ => .seq []

def instantiateAll (g : Registry) (ρ : Replacement) : List TypeExpr → List Term
  | [] => []
  | first :: rest => instantiate g ρ first :: instantiateAll g ρ rest

end

variable {g : Registry} {ρ ρ' : Replacement} {type : TypeExpr} {overrides : Overrides}

theorem instantiateAll_eq_map (types : List TypeExpr) :
    g.instantiateAll ρ types = types.map (g.instantiate ρ) := by
  induction types with
  | nil => simp [instantiateAll]
  | cons first rest ih => simp [instantiateAll, ih]

@[simp]
theorem instantiate_declared (name : String) (arguments : List TypeExpr) :
    g.instantiate ρ (.declared name arguments) =
      .seq (g.atomOf name :: arguments.map (g.instantiate ρ)) := by
  rw [instantiate, instantiateAll_eq_map]

@[simp]
theorem instantiate_typeVar (name : String) :
    g.instantiate ρ (.typeVar name) = (ρ name).getD (g.atomOf name) := by
  rw [instantiate]

@[simp]
theorem instantiate_primitive (name : String) : g.instantiate ρ (.primitive name) = g.atomOf name := by
  rw [instantiate]

@[simp]
theorem instantiate_array (component : TypeExpr) :
    g.instantiate ρ (.array component) = g.atomOf (component.text ++ "[]") := by
  rw [instantiate]

/-- An assignment acts on an instance through the terms that stand for the names. -/
theorem value_instantiate (θ : Assignment) (htype : type.Encodable) :
    θ.value (g.instantiate ρ type) = g.instantiate (fun name => (ρ name).map θ.value) type := by
  induction htype with
  | primitive name => simp [atomOf]
  | array h => simp [atomOf]
  | declared name h ih => simpa [atomOf] using ih
  | typeVar name => cases hname : ρ name <;> simp [hname, atomOf]

/-- What occurs in an instance comes from the names of the type. -/
theorem mem_occurrences_instantiate_iff (htype : type.Encodable) {u : Unknown} :
    u ∈ (g.instantiate ρ type).occurrences ↔
      ∃ name ∈ type.typeVars, ∃ term, ρ name = some term ∧ u ∈ term.occurrences := by
  induction htype with
  | primitive name => simp [atomOf]
  | array h => simp [atomOf]
  | @declared name arguments h ih =>
      simp only [instantiate_declared, Term.occurrences_seq, List.flatMap_cons, atomOf,
        Term.occurrences_atom, List.nil_append, List.flatMap_map, List.mem_flatMap,
        TypeExpr.typeVars_declared]
      constructor
      · rintro ⟨argument, hargument, hu⟩
        obtain ⟨found, hfound, hterm⟩ := (ih argument hargument).mp hu
        exact ⟨found, ⟨argument, hargument, hfound⟩, hterm⟩
      · rintro ⟨found, ⟨argument, hargument, hfound⟩, hterm⟩
        exact ⟨argument, hargument, (ih argument hargument).mpr ⟨found, hfound, hterm⟩⟩
  | typeVar name => cases hname : ρ name <;> simp [hname, atomOf]

/-- Replacements of the same names give the same instance when they agree on the names that occur. -/
theorem instantiate_eq_instantiate_iff (hsame : ∀ name, (ρ name).isSome ↔ (ρ' name).isSome)
    (htype : type.Encodable) :
    g.instantiate ρ type = g.instantiate ρ' type ↔ ∀ name ∈ type.typeVars, ρ name = ρ' name := by
  induction htype with
  | primitive name => simp
  | array h => simp
  | @declared name arguments h ih =>
      simp only [instantiate_declared, Term.seq.injEq, List.cons.injEq, true_and, List.map_inj_left,
        TypeExpr.typeVars_declared, List.mem_flatMap]
      constructor
      · rintro heq found ⟨argument, hargument, hfound⟩
        exact (ih argument hargument).mp (heq argument hargument) found hfound
      · intro heq argument hargument
        exact (ih argument hargument).mpr fun found hfound => heq found ⟨argument, hargument, hfound⟩
  | typeVar name =>
      have hname := hsame name
      cases hleft : ρ name <;> cases hright : ρ' name <;> simp_all

theorem Grows.atomOf_eq {g g' : Registry} {text : String} (h : (g.intern text).2.Grows g') :
    g'.atomOf text = .atom (g.intern text).1 := by
  rw [atomOf, h.intern_eq]

theorem encodeAll_cons_of_ok {g : Registry} {first : TypeExpr} {term : Term} (rest : List TypeExpr)
    (h : (g.encode overrides first).1 = .ok term) :
    g.encodeAll overrides (first :: rest) =
      let outcome := (g.encode overrides first).2.encodeAll overrides rest
      (outcome.1.map fun terms => term :: terms, outcome.2) := by
  rw [encodeAll]
  generalize g.encode overrides first = outcome at h ⊢
  obtain ⟨encoded, g'⟩ := outcome
  obtain rfl : encoded = .ok term := h
  rfl

mutual

/-- Encoding gives the instance that replaces the declared names by their unknowns. -/
theorem encode_eq_instantiate (overrides : Overrides) {type : TypeExpr} (htype : type.Encodable)
    (g : Registry) : ∃ term, (g.encode overrides type).1 = .ok term ∧
      ∀ g', (g.encode overrides type).2.Grows g' →
        g'.instantiate overrides.replacement type = term := by
  cases type with
  | primitive name =>
      rw [encode]
      exact ⟨_, rfl, fun g' hgrows => by simpa using hgrows.atomOf_eq⟩
  | array component =>
      cases htype with
      | array hgenuine =>
          rw [encode, TypeExpr.canonicalText_eq_ok_iff.mpr ⟨hgenuine, rfl⟩]
          exact ⟨_, rfl, fun g' hgrows => by simpa using hgrows.atomOf_eq⟩
  | typeVar name =>
      rw [encode]
      cases hname : overrides.get? name with
      | some u => exact ⟨_, rfl, fun g' _ => by simp [Overrides.replacement, hname]⟩
      | none =>
          refine ⟨_, rfl, fun g' hgrows => ?_⟩
          simpa [Overrides.replacement, hname] using hgrows.atomOf_eq
  | declared name arguments =>
      cases htype with
      | declared _ harguments =>
          obtain ⟨terms, hterms, hsame⟩ :=
            encodeAll_eq_instantiate overrides harguments (g.intern name).2
          have hgrowsAll := (encodeAll_spec overrides arguments (g.intern name).2).1
          rw [encode]
          refine ⟨.seq (.atom (g.intern name).1 :: terms), by simp [hterms, Except.map], ?_⟩
          intro g' hgrows
          rw [instantiate_declared, hsame g' hgrows, (hgrowsAll.trans hgrows).atomOf_eq]
  | wildcard kind => cases htype
  | bounded kind bound => cases htype
  | intersection bounds => cases htype
  | scalar value => cases htype

theorem encodeAll_eq_instantiate (overrides : Overrides) {types : List TypeExpr}
    (htypes : ∀ type ∈ types, type.Encodable) (g : Registry) :
    ∃ terms, (g.encodeAll overrides types).1 = .ok terms ∧
      ∀ g', (g.encodeAll overrides types).2.Grows g' →
        types.map (g'.instantiate overrides.replacement) = terms := by
  cases types with
  | nil => exact ⟨[], by simp [encodeAll], fun g' _ => rfl⟩
  | cons first rest =>
      rw [List.forall_mem_cons] at htypes
      obtain ⟨term, hterm, hsame⟩ := encode_eq_instantiate overrides htypes.1 g
      obtain ⟨terms, hterms, hothers⟩ :=
        encodeAll_eq_instantiate overrides htypes.2 (g.encode overrides first).2
      have hgrowsRest := (encodeAll_spec overrides rest (g.encode overrides first).2).1
      rw [encodeAll_cons_of_ok rest hterm]
      refine ⟨term :: terms, by simp [hterms, Except.map], fun g' hgrows => ?_⟩
      rw [List.map_cons, hsame g' (hgrowsRest.trans hgrows), hothers g' hgrows]

end

mutual

/-- Only types with a term are encoded. -/
theorem encodable_of_encode_eq_ok {overrides : Overrides} {type : TypeExpr} {g : Registry}
    {term : Term} (h : (g.encode overrides type).1 = .ok term) : type.Encodable := by
  cases type with
  | primitive name => exact .primitive name
  | typeVar name => exact .typeVar name
  | array component =>
      rw [encode] at h
      cases hwritten : component.canonicalText with
      | ok text => exact .array (TypeExpr.canonicalText_eq_ok_iff.mp hwritten).1
      | error value => simp [hwritten] at h
  | declared name arguments =>
      rw [encode] at h
      obtain ⟨terms, hterms, -⟩ := exists_of_map_eq_ok h
      exact .declared name (encodable_of_encodeAll_eq_ok hterms)
  | wildcard kind => simp [encode] at h
  | bounded kind bound => simp [encode] at h
  | intersection bounds => simp [encode] at h
  | scalar value => simp [encode] at h

theorem encodable_of_encodeAll_eq_ok {overrides : Overrides} {types : List TypeExpr} {g : Registry}
    {terms : List Term} (h : (g.encodeAll overrides types).1 = .ok terms) :
    ∀ type ∈ types, type.Encodable := by
  cases types with
  | nil => simp
  | cons first rest =>
      cases hfirst : (g.encode overrides first).1 with
      | error fault =>
          rw [encodeAll] at h
          simp [hfirst] at h
      | ok term =>
          rw [encodeAll_cons_of_ok rest hfirst] at h
          obtain ⟨others, hothers, -⟩ := exists_of_map_eq_ok h
          exact List.forall_mem_cons.mpr
            ⟨encodable_of_encode_eq_ok hfirst, encodable_of_encodeAll_eq_ok hothers⟩

end

/-- Whether a type encodes depends neither on the registry nor on the declared names. -/
theorem exists_encode_eq_ok_iff (g : Registry) (overrides : Overrides) (type : TypeExpr) :
    (∃ term, (g.encode overrides type).1 = .ok term) ↔ type.Encodable := by
  constructor
  · rintro ⟨term, h⟩
    exact encodable_of_encode_eq_ok h
  · intro htype
    obtain ⟨term, hterm, -⟩ := encode_eq_instantiate overrides htype g
    exact ⟨term, hterm⟩

theorem declares_typeParameters (g : Registry) (names : List String) :
    (g.typeParameters names []).1.Declares names := by
  have hnone : Overrides.Declares [] [] := ⟨by simp, by simp⟩
  obtain ⟨hhint, hisSome⟩ := hnone.of_typeParameters g names
  exact ⟨hhint, fun name => (hisSome name).trans (by simp)⟩

/-- Encoded types share their unknowns as the types share their declared names. -/
theorem forall_occurrences_iff {names : List String} (hdeclares : overrides.Declares names)
    (htype : type.Encodable) {other : TypeExpr} (hother : other.Encodable) (g g' : Registry) :
    (∀ u ∈ (g.instantiate overrides.replacement type).occurrences,
        u ∈ (g'.instantiate overrides.replacement other).occurrences) ↔
      ∀ name ∈ type.typeVars, name ∈ names → name ∈ other.typeVars := by
  have hmem : ∀ {g : Registry} {type : TypeExpr}, type.Encodable → ∀ u,
      u ∈ (g.instantiate overrides.replacement type).occurrences ↔
        ∃ name ∈ type.typeVars, overrides.get? name = some u := by
    intro g type htype u
    rw [mem_occurrences_instantiate_iff htype]
    simp only [Overrides.replacement, Option.map_eq_some_iff]
    refine exists_congr fun name => and_congr_right fun _ => ?_
    constructor
    · rintro ⟨term, ⟨v, hv, rfl⟩, hu⟩
      obtain rfl : u = v := by simpa using hu
      exact hv
    · intro hv
      exact ⟨_, ⟨u, hv, rfl⟩, by simp⟩
  constructor
  · intro hall name hname hdeclared
    obtain ⟨u, hu⟩ := Option.isSome_iff_exists.mp ((hdeclares.isSome_iff name).mpr hdeclared)
    obtain ⟨found, hfound, hsame⟩ := (hmem hother u).mp (hall u ((hmem htype u).mpr ⟨name, hname, hu⟩))
    -- The hint tells that both names are one.
    rwa [← hdeclares.hint hu, hdeclares.hint hsame]
  · intro hall u hu
    obtain ⟨name, hname, hu⟩ := (hmem htype u).mp hu
    have hdeclared := (hdeclares.isSome_iff name).mp (Option.isSome_iff_exists.mpr ⟨u, hu⟩)
    exact (hmem hother u).mpr ⟨name, hall name hname hdeclared, hu⟩

/-- Without declared names nothing is left open. -/
theorem exists_encode_nil {type : TypeExpr} (htype : type.Encodable) (g : Registry) :
    ∃ term g', g.encode [] type = (.ok term, g') ∧ term.isGround := by
  obtain ⟨term, hterm, hinstance⟩ := encode_eq_instantiate [] htype g
  refine ⟨term, _, Prod.ext hterm rfl, ?_⟩
  rw [← hinstance _ (.refl _), Term.isGround_iff, List.eq_nil_iff_forall_not_mem]
  intro u hu
  obtain ⟨name, -, found, hfound, -⟩ := (mem_occurrences_instantiate_iff htype).mp hu
  simp [Overrides.replacement] at hfound

end Registry

end BuilderFields
