import BuilderFields.Proofs.Registry.Instance
import BuilderFields.Proofs.Term.Relabel

/-!
# Other names for type parameters

The name of a type parameter is the hint of its unknown and leaves no other trace in a term, except where it is part
of the text of an array. So an operation with other names for its type parameters has the same terms up to a
relabelling of the unknowns, over the same registry.
-/

namespace BuilderFields

def Parameter.rename (σ : String → String) (parameter : Parameter) : Parameter where
  name := parameter.name
  type := parameter.type.rename σ

def Signature.rename (σ : String → String) (signature : Signature) : Signature where
  name := signature.name
  typeParameters := signature.typeParameters.map σ
  parameters := signature.parameters.map (Parameter.rename σ)
  returnType := signature.returnType.rename σ

/-- Other names for the type parameters of an operation, different for different ones, and different from all type
variables that the operation mentions without declaring them. -/
structure Signature.Renaming (signature : Signature) (σ : String → String) : Prop where
  injOn : Set.InjOn σ {name | name ∈ signature.typeParameters}
  eq_self : ∀ name, name ∉ signature.typeParameters → σ name = name
  fresh : ∀ type ∈ signature.types, ∀ name ∈ type.typeVars, name ∉ signature.typeParameters →
    name ∉ signature.typeParameters.map σ

theorem Signature.renaming_id (signature : Signature) : signature.Renaming id where
  injOn := fun _ _ _ _ h => h
  eq_self := fun _ _ => rfl
  fresh := fun _ _ _ _ h => by simpa using h

namespace Registry

/-! ### The unknowns of the declared names -/

section Declare

variable {g : Registry} {f : Equiv.Perm Unknown} {σ : String → String} {names : List String}
  {known known' : Overrides}

-- The relabelling keeps handles, and whatever the registry has not issued yet.
structure Confines (g : Registry) (f : Equiv.Perm Unknown) : Prop where
  handle : ∀ u, (f u).handle = u.handle
  beyond : ∀ u : Unknown, (g.issued : Int) ≤ u.handle → f u = u

-- The tables declare the same names, which are other names in the second, for unknowns that are issued and that
-- the relabelling takes from the first to the second.
structure Carries (g : Registry) (f : Equiv.Perm Unknown) (σ : String → String)
    (names : List String) (known known' : Overrides) : Prop where
  issued : ∀ {name u}, known.get? name = some u → u.handle < (g.issued : Int)
  get?_eq : ∀ name ∈ names, known'.get? (σ name) = (known.get? name).map f

/-- Renamed overrides stay renamed as the registry grows. -/
theorem Carries.later {g' : Registry} {f' : Equiv.Perm Unknown}
    (h : g.Carries f σ names known known') (hgrows : g.Grows g')
    (hkept : ∀ u : Unknown, u.handle < (g.issued : Int) → f' u = f u) :
    g'.Carries f' σ names known known' where
  issued := fun hu => lt_of_lt_of_le (h.issued hu) (by exact_mod_cast hgrows.issued)
  get?_eq := by
    intro name hname
    rw [h.get?_eq name hname]
    exact Option.map_congr fun u hu => (hkept u (h.issued hu)).symm

theorem confines_refl (g : Registry) : g.Confines (Equiv.refl Unknown) :=
  ⟨fun _ => rfl, fun _ _ => rfl⟩

theorem carries_nil (g : Registry) (f : Equiv.Perm Unknown) (σ : String → String)
    (names : List String) : g.Carries f σ names [] [] where
  issued := by simp
  get?_eq := fun _ _ => by simp

/-- What was issued under two names may be exchanged on top of a relabelling. -/
theorem Confines.swap (h : g.Confines f) (name other : String) :
    let exchanged := f.trans (Equiv.swap (g.freshUnknown name).1 (g.freshUnknown other).1)
    (g.freshUnknown name).2.Confines exchanged ∧
      (∀ u : Unknown, u.handle < (g.issued : Int) → exchanged u = f u) ∧
      exchanged (g.freshUnknown name).1 = (g.freshUnknown other).1 := by
  have hapart : ∀ (u : Unknown) (hint : String), u.handle ≠ (g.issued : Int) →
      u ≠ (g.freshUnknown hint).1 := by
    rintro u hint hhandle rfl
    exact hhandle rfl
  refine ⟨⟨fun u => ?_, fun u hu => ?_⟩, fun u hu => ?_, ?_⟩
  · rw [Equiv.trans_apply, Equiv.swap_apply_def]
    split
    · rename_i heq
      rw [← h.handle u, heq]
      rfl
    split
    · rename_i heq
      rw [← h.handle u, heq]
      rfl
    · exact h.handle u
  · have hlater : (g.issued : Int) < u.handle := by
      have hissued : ((g.freshUnknown name).2.issued : Int) = g.issued + 1 := rfl
      omega
    rw [Equiv.trans_apply, h.beyond u hlater.le]
    exact Equiv.swap_apply_of_ne_of_ne (hapart u _ hlater.ne') (hapart u _ hlater.ne')
  · have hearlier : (f u).handle ≠ (g.issued : Int) := by
      rw [h.handle u]
      exact hu.ne
    rw [Equiv.trans_apply]
    exact Equiv.swap_apply_of_ne_of_ne (hapart _ _ hearlier) (hapart _ _ hearlier)
  · rw [Equiv.trans_apply, h.beyond _ (le_refl _), Equiv.swap_apply_left]

/-- Declaring type parameters under other names relabels their unknowns, and no older ones. -/
theorem exists_carries_typeParameters (hσ : Set.InjOn σ {name | name ∈ names}) (more : List String)
    (hmore : ∀ name ∈ more, name ∈ names) (hf : g.Confines f)
    (hknown : g.Carries f σ names known known') :
    (g.typeParameters (more.map σ) known').2 = (g.typeParameters more known).2 ∧
      ∃ f', (g.typeParameters more known).2.Confines f' ∧
        (∀ u : Unknown, u.handle < (g.issued : Int) → f' u = f u) ∧
        (g.typeParameters more known).2.Carries f' σ names (g.typeParameters more known).1
          (g.typeParameters (more.map σ) known').1 := by
  -- Each name exchanges one more pair of unknowns, with a handle that no earlier one has.
  induction more generalizing g f known known' with
  | nil => exact ⟨rfl, f, hf, fun _ _ => rfl, hknown⟩
  | cons name rest ih =>
      rw [List.forall_mem_cons] at hmore
      obtain ⟨hexchanged, hkept, hname⟩ := hf.swap name (σ name)
      have hput : (g.freshUnknown name).2.Carries
          (f.trans (Equiv.swap (g.freshUnknown name).1 (g.freshUnknown (σ name)).1)) σ names
          (known.put name (g.freshUnknown name).1)
          (known'.put (σ name) (g.freshUnknown (σ name)).1) := by
        refine ⟨fun {other u} hu => ?_, fun other hother => ?_⟩
        · have hissued : ((g.freshUnknown name).2.issued : Int) = g.issued + 1 := rfl
          rw [Entries.get?_put] at hu
          split at hu
          · cases hu
            exact hissued ▸ Int.lt_succ _
          · have hearlier := hknown.issued hu
            omega
        · rw [Entries.get?_put, Entries.get?_put]
          by_cases hsame : other = name
          · rw [if_pos hsame, if_pos (congrArg σ hsame), Option.map_some, hname]
          · have hdiffer : σ other ≠ σ name := fun heq => hsame (hσ hother hmore.1 heq)
            rw [if_neg hsame, if_neg hdiffer, hknown.get?_eq other hother]
            exact Option.map_congr fun u hu => (hkept u (hknown.issued hu)).symm
      obtain ⟨hregistry, f', hconfines, hearlier, hcarries⟩ := ih hmore.2 hexchanged hput
      refine ⟨hregistry, f', hconfines, fun u hu => ?_, hcarries⟩
      have hissued : u.handle < ((g.freshUnknown name).2.issued : Int) := by
        have hnext : ((g.freshUnknown name).2.issued : Int) = g.issued + 1 := rfl
        omega
      rw [hearlier u hissued, hkept u hu]

structure Renames (g : Registry) (f : Equiv.Perm Unknown) (σ : String → String)
    (names : List String) (overrides overrides' : Overrides) : Prop where
  carries : g.Carries f σ names overrides overrides'
  declares : overrides.Declares names
  declares' : overrides'.Declares (names.map σ)

/-- Declaring renamed names draws the same unknowns with the hints exchanged. -/
theorem exists_renames_typeParameters (hσ : Set.InjOn σ {name | name ∈ names})
    (hf : g.Confines f) :
    ∃ overrides overrides' g' f',
      g.typeParameters names [] = (overrides, g') ∧
      g.typeParameters (names.map σ) [] = (overrides', g') ∧ g.Grows g' ∧ g'.Confines f' ∧
      (∀ u : Unknown, u.handle < (g.issued : Int) → f' u = f u) ∧
      g'.Renames f' σ names overrides overrides' := by
  obtain ⟨hsame, f', hconfines, hkept, hcarries⟩ :=
    exists_carries_typeParameters hσ names (fun _ h => h) hf (g.carries_nil f σ names)
  refine ⟨_, _, _, f', rfl, Prod.ext rfl hsame, g.grows_typeParameters names [], hconfines, hkept, ?_⟩
  exact ⟨hcarries, g.declares_typeParameters names, g.declares_typeParameters (names.map σ)⟩

end Declare

/-- The type variables that an operation does not declare are in neither table. -/
theorem Renames.get?_typeVar {g : Registry} {f : Equiv.Perm Unknown} {σ : String → String}
    {overrides overrides' : Overrides} {signature : Signature}
    (h : g.Renames f σ signature.typeParameters overrides overrides') (hσ : signature.Renaming σ)
    {type : TypeExpr} (htype : type ∈ signature.types) : ∀ name ∈ type.typeVars,
      overrides'.get? (σ name) = (overrides.get? name).map f ∧
        (overrides.get? name = none → σ name = name) := by
  intro name hname
  by_cases hdeclared : name ∈ signature.typeParameters
  · refine ⟨h.carries.get?_eq name hdeclared, fun hnone => ?_⟩
    have hsome := (h.declares.isSome_iff name).mpr hdeclared
    rw [hnone] at hsome
    cases hsome
  · have hself := hσ.eq_self name hdeclared
    have hnone : overrides.get? name = none := by
      simpa using mt (h.declares.isSome_iff name).mp hdeclared
    have hnone' : overrides'.get? name = none := by
      simpa using mt (h.declares'.isSome_iff name).mp (hσ.fresh type htype name hname hdeclared)
    rw [hself, hnone, hnone', Option.map_none]
    exact ⟨rfl, fun _ => rfl⟩

/-! ### The terms of the types -/

section Encode

variable {f : Equiv.Perm Unknown} {σ : String → String} {overrides overrides' : Overrides}

mutual

/-- A renamed type is encoded as the relabelled term of the type. -/
theorem encode_rename {type : TypeExpr} (htype : type.Encodable)
    (hnames : ∀ name ∈ type.typeVars, overrides'.get? (σ name) = (overrides.get? name).map f ∧
      (overrides.get? name = none → σ name = name))
    (harrays : ∀ name ∈ type.arrayTypeVars, σ name = name) (g : Registry) :
    g.encode overrides' (type.rename σ) =
      ((g.encode overrides type).1.map (Term.relabel f), (g.encode overrides type).2) := by
  cases type with
  | primitive name =>
      rw [TypeExpr.rename, encode, encode]
      simp [Except.map]
  | array component =>
      rw [TypeExpr.arrayTypeVars, List.forall_mem_append] at harrays
      rw [TypeExpr.rename, TypeExpr.rename_eq_self harrays.1 harrays.2, encode, encode]
      cases component.canonicalText <;> simp [Except.map]
  | typeVar name =>
      obtain ⟨hname, hself⟩ := hnames name (by simp)
      rw [TypeExpr.rename, encode, encode, hname]
      cases hdeclared : overrides.get? name with
      | some u => simp [Except.map]
      | none =>
          rw [hself hdeclared]
          simp [Except.map]
  | declared name arguments =>
      rw [TypeExpr.typeVars_declared, List.forall_mem_flatMap] at hnames
      rw [TypeExpr.arrayTypeVars, TypeExpr.arrayTypeVarsAll_eq_flatMap,
        List.forall_mem_flatMap] at harrays
      cases htype with
      | declared _ harguments =>
          have hall := encodeAll_rename harguments hnames harrays (g.intern name).2
          obtain ⟨terms, hterms, -⟩ :=
            encodeAll_eq_instantiate overrides harguments (g.intern name).2
          rw [TypeExpr.rename, encode, encode, TypeExpr.renameAll_eq_map]
          simp [hall, hterms, Except.map]
  | wildcard kind => cases htype
  | bounded kind bound => cases htype
  | intersection bounds => cases htype
  | scalar value => cases htype

theorem encodeAll_rename {types : List TypeExpr} (htypes : ∀ type ∈ types, type.Encodable)
    (hnames : ∀ type ∈ types, ∀ name ∈ type.typeVars,
      overrides'.get? (σ name) = (overrides.get? name).map f ∧
        (overrides.get? name = none → σ name = name))
    (harrays : ∀ type ∈ types, ∀ name ∈ type.arrayTypeVars, σ name = name) (g : Registry) :
    g.encodeAll overrides' (types.map (TypeExpr.rename σ)) =
      ((g.encodeAll overrides types).1.map (List.map (Term.relabel f)),
        (g.encodeAll overrides types).2) := by
  cases types with
  | nil => simp [encodeAll, Except.map]
  | cons first rest =>
      rw [List.forall_mem_cons] at htypes hnames harrays
      have hfirst := encode_rename htypes.1 hnames.1 harrays.1 g
      have hrest := encodeAll_rename htypes.2 hnames.2 harrays.2 (g.encode overrides first).2
      obtain ⟨term, hterm, -⟩ := encode_eq_instantiate overrides htypes.1 g
      have hrenamed : (g.encode overrides' (first.rename σ)).1 = .ok (term.relabel f) := by
        rw [hfirst, hterm]
        rfl
      rw [List.map_cons, encodeAll_cons_of_ok _ hrenamed, encodeAll_cons_of_ok rest hterm, hfirst]
      obtain ⟨terms, hterms, -⟩ :=
        encodeAll_eq_instantiate overrides htypes.2 (g.encode overrides first).2
      simp [hrest, hterms, Except.map]

end

end Encode

/-- What the types of an operation encode to under the other names. -/
theorem Renames.exists_encode {g : Registry} {f : Equiv.Perm Unknown} {σ : String → String}
    {overrides overrides' : Overrides} {signature : Signature}
    (h : g.Renames f σ signature.typeParameters overrides overrides') (hσ : signature.Renaming σ)
    {type : TypeExpr} (hmem : type ∈ signature.types) (htype : type.Encodable)
    (harrays : ∀ name ∈ type.arrayTypeVars, σ name = name) (g' : Registry) :
    ∃ term g'', g'.encode overrides type = (.ok term, g'') ∧
      g'.encode overrides' (type.rename σ) = (.ok (term.relabel f), g'') := by
  obtain ⟨term, hterm, -⟩ := encode_eq_instantiate overrides htype g'
  refine ⟨term, _, Prod.ext hterm rfl, ?_⟩
  rw [encode_rename htype (h.get?_typeVar hσ hmem) harrays, hterm]
  rfl

end Registry

end BuilderFields
