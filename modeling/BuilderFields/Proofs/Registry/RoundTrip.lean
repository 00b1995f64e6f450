import BuilderFields.Proofs.Registry.Calls
import BuilderFields.Proofs.Registry.Written

/-!
# Rendering undoes encoding

Encoding and rendering are calls of one run, with any other calls before, between and after them. A type is encoded
unless a wildcard or an intersection stands in it outside of arrays, and the first of these is what it fails with. The
term of a type then stands for all its instances at once: one pass that gives every unknown the term of a type leaves a
term without unknowns, and what is rendered for it is the type with those types in it, as it is written. Both sides meet
in `instantiate`, which knows neither unknowns nor the order of the calls.
-/

namespace BuilderFields

namespace TypeExpr

mutual

/-- The parts of a type outside of arrays in reading order, each one before what it is made of. -/
def parts : TypeExpr → List TypeExpr
  | .primitive name => [.primitive name]
  | .array component => [.array component]
  | .declared name arguments => .declared name arguments :: partsAll arguments
  | .typeVar name => [.typeVar name]
  | .wildcard kind => [.wildcard kind]
  | .bounded kind bound => .bounded kind bound :: bound.parts
  | .intersection bounds => .intersection bounds :: partsAll bounds
  | .scalar value => [.scalar value]

def partsAll : List TypeExpr → List TypeExpr
  | [] => []
  | first :: rest => first.parts ++ partsAll rest

end

def isTermless : TypeExpr → Bool
  | .wildcard _ | .bounded _ _ | .intersection _ => true
  | .primitive _ | .array _ | .declared _ _ | .typeVar _ | .scalar _ => false

/-- The first wildcard or intersection outside of arrays. -/
def firstTermless? (type : TypeExpr) : Option TypeExpr :=
  type.parts.find? isTermless

theorem partsAll_eq_flatMap (types : List TypeExpr) : partsAll types = types.flatMap parts := by
  induction types with
  | nil => rfl
  | cons first rest ih => simp [partsAll, ih]

theorem firstTermless?_declared (name : String) (arguments : List TypeExpr) :
    (declared name arguments).firstTermless? = arguments.findSome? firstTermless? := by
  rw [firstTermless?, parts, List.find?_cons_of_neg (by simp [isTermless]), partsAll_eq_flatMap,
    List.find?_flatMap]
  rfl

theorem genuine_declared_iff {name : String} {arguments : List TypeExpr} :
    (declared name arguments).Genuine ↔ ∀ argument ∈ arguments, argument.Genuine := by
  rw [Genuine, foreign?, foreignAmong?_eq_findSome?, List.findSome?_eq_none_iff]
  rfl

theorem firstTermless?_eq_self {type : TypeExpr} (h : type.isTermless) :
    type.firstTermless? = some type := by
  cases type <;> simp_all [firstTermless?, parts, isTermless]

theorem not_encodable_of_isTermless {type : TypeExpr} (h : type.isTermless) : ¬ type.Encodable := by
  rintro (_ | _ | _ | _) <;> simp [isTermless] at h

/-- A genuine type has a term unless it has a termless part. -/
theorem encodable_iff_firstTermless? {type : TypeExpr} (htype : type.Genuine) :
    type.Encodable ↔ type.firstTermless? = none := by
  have htermless : ∀ {type : TypeExpr}, type.isTermless →
      (type.Encodable ↔ type.firstTermless? = none) := fun h =>
    iff_of_false (not_encodable_of_isTermless h) (by simp [firstTermless?_eq_self h])
  induction type using TypeExpr.inductionOn with
  | primitive name => simp [firstTermless?, parts, isTermless]
  | array component => simpa [firstTermless?, parts, isTermless, Genuine, foreign?] using htype
  | declared name arguments ih =>
      rw [genuine_declared_iff] at htype
      rw [encodable_declared_iff, firstTermless?_declared, List.findSome?_eq_none_iff]
      exact forall₂_congr fun argument hargument => ih argument hargument (htype argument hargument)
  | typeVar name => simp [firstTermless?, parts, isTermless]
  | wildcard kind => exact htermless rfl
  | bounded kind bound => exact htermless rfl
  | intersection bounds => exact htermless rfl
  | scalar value => simp [Genuine, foreign?] at htype

end TypeExpr

namespace Registry

variable {g g' : Registry} {overrides : Overrides} {type : TypeExpr} {term : Term}

/-! ### What an encoding fails with -/

mutual

/-- Encoding goes through the parts in reading order, and the first one without a term is reported. -/
theorem encode_eq_error_of_firstTermless? (overrides : Overrides) {type part : TypeExpr}
    (htype : type.Genuine) (hpart : type.firstTermless? = some part) (g : Registry) :
    (g.encode overrides type).1 = .error (.unsupported part) := by
  cases type with
  | primitive name => simp [TypeExpr.firstTermless?, TypeExpr.parts, TypeExpr.isTermless] at hpart
  | array component =>
      simp [TypeExpr.firstTermless?, TypeExpr.parts, TypeExpr.isTermless] at hpart
  | declared name arguments =>
      rw [TypeExpr.genuine_declared_iff] at htype
      rw [TypeExpr.firstTermless?_declared] at hpart
      rw [encode]
      dsimp only
      rw [encodeAll_eq_error_of_findSome? overrides htype hpart]
      rfl
  | typeVar name => simp [TypeExpr.firstTermless?, TypeExpr.parts, TypeExpr.isTermless] at hpart
  | wildcard kind =>
      rw [TypeExpr.firstTermless?_eq_self rfl] at hpart
      rw [encode, Option.some.inj hpart]
  | bounded kind bound =>
      rw [TypeExpr.firstTermless?_eq_self rfl] at hpart
      rw [encode, Option.some.inj hpart]
  | intersection bounds =>
      rw [TypeExpr.firstTermless?_eq_self rfl] at hpart
      rw [encode, Option.some.inj hpart]
  | scalar value => simp [TypeExpr.Genuine, TypeExpr.foreign?] at htype

/-- Types are rejected for the first termless part among them. -/
theorem encodeAll_eq_error_of_findSome? (overrides : Overrides) {types : List TypeExpr}
    {part : TypeExpr} (htypes : ∀ type ∈ types, type.Genuine)
    (hpart : types.findSome? TypeExpr.firstTermless? = some part) (g : Registry) :
    (g.encodeAll overrides types).1 = .error (.unsupported part) := by
  cases types with
  | nil => simp at hpart
  | cons first rest =>
      rw [List.forall_mem_cons] at htypes
      obtain ⟨hfirst, hrest⟩ := htypes
      rw [List.findSome?_cons] at hpart
      cases hfound : first.firstTermless? with
      | some found =>
          rw [hfound] at hpart
          obtain rfl := Option.some.inj hpart
          have hfails := encode_eq_error_of_firstTermless? overrides hfirst hfound g
          rw [encodeAll]
          generalize g.encode overrides first = outcome at hfails ⊢
          obtain ⟨encoded, g'⟩ := outcome
          obtain rfl : encoded = .error (.unsupported found) := hfails
          rfl
      | none =>
          rw [hfound] at hpart
          obtain ⟨term, hterm⟩ := (exists_encode_eq_ok_iff g overrides first).mpr
            ((TypeExpr.encodable_iff_firstTermless? hfirst).mpr hfound)
          rw [encodeAll_cons_of_ok rest hterm]
          dsimp only
          rw [encodeAll_eq_error_of_findSome? overrides hrest hpart]
          rfl

end

/-! ### What is rendered -/

/-- The term of a type without open names is rendered as the type is written. -/
theorem render_constant (htype : type.Encodable) (h : g.Holds (g.constant type)) :
    g.render (g.constant type) = .ok type.text := by
  obtain ⟨text, htext⟩ := exists_render_eq_ok h (g.isGround_constant htype)
  rw [htext, eq_text_of_render_constant htype htext]

/-- What encoding gives is an instance in every later registry. -/
theorem eq_instantiate_of_encode (h : (g.encode overrides type).1 = .ok term)
    (hgrows : (g.encode overrides type).2.Grows g') :
    term = g'.instantiate overrides.replacement type := by
  obtain ⟨found, hfound, hsame⟩ := encode_eq_instantiate overrides (encodable_of_encode_eq_ok h) g
  rw [Except.ok.inj (h.symm.trans hfound), hsame g' hgrows]

/-- A pass acts on an instance through the terms that stand for the names. -/
theorem apply_instantiate (s : Substitution) {ρ : Replacement} (htype : type.Encodable) :
    s.apply (g.instantiate ρ type) = g.instantiate (fun name => (ρ name).map s.apply) type := by
  have hpass : s.apply = s.toAssignment.value := funext s.apply_eq_value
  rw [hpass, value_instantiate s.toAssignment htype]

end Registry

namespace Overrides

variable {overrides : Overrides}

def bindings (overrides : Overrides) (terms : String → Term) : Substitution :=
  .ofList (overrides.map fun entry => (entry.2, terms entry.1))

def images (overrides : Overrides) (types : String → TypeExpr) : String → Option TypeExpr :=
  fun name => (overrides.get? name).map fun _ => types name

/-- Each declared unknown is bound to the term of its name. -/
theorem get?_bindings (hunknowns : (overrides.map Prod.snd).Nodup) (terms : String → Term)
    {name : String} {u : Unknown} (hname : overrides.get? name = some u) :
    (overrides.bindings terms).get? u = some (terms name) := by
  refine Entries.get?_ofList_of_mem ?_ ?_
  · rwa [List.map_map]
  · exact List.mem_map.mpr ⟨(name, u), Entries.mem_of_get?_eq_some hname, rfl⟩

theorem exists_of_get?_bindings {terms : String → Term} {u : Unknown} {term : Term}
    (h : (overrides.bindings terms).get? u = some term) :
    ∃ name ∈ overrides.keys, terms name = term := by
  obtain ⟨entry, hentry, heq⟩ := List.mem_map.mp (Substitution.mem_of_get?_eq_some h)
  exact ⟨entry.1, List.mem_map_of_mem hentry, (Prod.mk.inj heq).2⟩

end Overrides

namespace Registry

variable {g g' : Registry} {overrides : Overrides} {type : TypeExpr} {term : Term}
  {types : String → TypeExpr} {terms : String → Term}

/-- One pass turns the term of a type into the term of the type with the other types in it. -/
theorem apply_bindings_eq_constant (hunknowns : (overrides.map Prod.snd).Nodup)
    (hterms : ∀ name ∈ overrides.keys, terms name = g'.constant (types name))
    (hterm : (g.encode overrides type).1 = .ok term)
    (hgrows : (g.encode overrides type).2.Grows g') :
    (overrides.bindings terms).apply term =
      g'.constant (type.replace (overrides.images types)) := by
  have htype := encodable_of_encode_eq_ok hterm
  have hsame : (fun name => (overrides.replacement name).map (overrides.bindings terms).apply) =
      fun name => (overrides.images types name).map g'.constant := by
    funext name
    unfold Overrides.replacement Overrides.images
    cases hname : overrides.get? name with
    | none => rfl
    | some u =>
        have hkey : name ∈ overrides.keys := by
          by_contra hnone
          rw [Entries.get?_eq_none_iff.mpr hnone] at hname
          cases hname
        have hbound := overrides.get?_bindings hunknowns terms hname
        simp only [Option.map_some, Substitution.apply_unknown_of_get?_eq_some hbound,
          hterms name hkey]
  rw [eq_instantiate_of_encode hterm hgrows, apply_instantiate _ htype, hsame,
    g'.instantiate_eq_constant_replace _ htype]

theorem holds_apply_bindings (hterms : ∀ name ∈ overrides.keys, g.Holds (terms name))
    (hterm : g.Holds term) : g.Holds ((overrides.bindings terms).apply term) := by
  rw [Substitution.apply_eq_value]
  refine hterm.value fun u _ => ?_
  unfold Substitution.toAssignment
  cases hbound : (overrides.bindings terms).get? u with
  | none => exact .unknown u
  | some found =>
      obtain ⟨name, hname, rfl⟩ := Overrides.exists_of_get?_bindings hbound
      exact hterms name hname

/-! ### In a run -/

/-- The run makes this call, and this is the reply. -/
def Answered (start : Registry) (calls : List Call) (call : Call) (reply : Reply) : Prop :=
  ∃ earlier later, calls = earlier ++ call :: later ∧ ((start.after earlier).answer call).1 = reply

/-- An answered encoding was made by some registry of the run, which the final one extends. -/
theorem Answered.exists_encode {start : Registry} {calls : List Call}
    {outcome : Except EncodingFault Term}
    (h : Answered start calls (.encode overrides type) (.term outcome)) :
    ∃ g : Registry, (g.encode overrides type).1 = outcome ∧
      (g.encode overrides type).2.Grows (start.after calls) := by
  obtain ⟨earlier, later, rfl, hreply⟩ := h
  refine ⟨start.after earlier, Reply.term.inj hreply, ?_⟩
  rw [after_append]
  exact grows_after _ later

/-- **Rendering undoes encoding.** A type is encoded unless it has a wildcard or an intersection outside of arrays, the
first of which is reported otherwise. And once the types for its variables are encoded too, at whatever point of the
run, one pass gives the term that is rendered as the type with these types in it. -/
theorem render_apply_encode (arena : Nat) {calls : List Call} {overrides : Overrides}
    {type : TypeExpr} {outcome : Except EncodingFault Term}
    (htype : type.Genuine) (hunknowns : (overrides.map Prod.snd).Nodup)
    (htypes : ∀ name ∈ overrides.keys, (types name).Encodable)
    (h : Answered (fresh arena) calls (.encode overrides type) (.term outcome)) :
    ((∃ term, outcome = .ok term) ↔ ∀ part ∈ type.parts, ¬ part.isTermless) ∧
    (∀ fault, outcome = .error fault →
      ∃ part, type.firstTermless? = some part ∧ fault = .unsupported part) ∧
    ∀ term, outcome = .ok term →
      (overrides = [] → ∃ text, type.canonicalText = .ok text ∧
        ((fresh arena).after calls).render term = .ok text) ∧
      ∀ terms : String → Term,
        (∀ name ∈ overrides.keys, Answered (fresh arena) calls (.encode [] (types name))
          (.term (.ok (terms name)))) →
        ((overrides.bindings terms).apply term).isGround ∧
        ∃ text, (type.replace (overrides.images types)).canonicalText = .ok text ∧
          ((fresh arena).after calls).render ((overrides.bindings terms).apply term) = .ok text := by
  obtain ⟨g, houtcome, hgrows⟩ := h.exists_encode
  generalize hend : (fresh arena).after calls = g' at hgrows
  have hencodable := TypeExpr.encodable_iff_firstTermless? htype
  refine ⟨?_, fun fault hfault => ?_, ?_⟩
  · rw [← houtcome, exists_encode_eq_ok_iff, hencodable, TypeExpr.firstTermless?,
      List.find?_eq_none]
  · rw [← houtcome] at hfault
    cases hfirst : type.firstTermless? with
    | none =>
        obtain ⟨term, hterm⟩ := (exists_encode_eq_ok_iff g overrides type).mpr (hencodable.mpr hfirst)
        rw [hterm] at hfault
        cases hfault
    | some part =>
        rw [encode_eq_error_of_firstTermless? overrides htype hfirst g] at hfault
        exact ⟨part, rfl, (Except.error.inj hfault).symm⟩
  · rintro term rfl
    have hholds : g'.Holds term := (holds_encode houtcome).grows hgrows
    have hterm := encodable_of_encode_eq_ok houtcome
    refine ⟨?_, fun terms hterms => ?_⟩
    · rintro rfl
      have hsame : term = g'.constant type := eq_instantiate_of_encode houtcome hgrows
      rw [hsame] at hholds ⊢
      exact ⟨_, hterm.canonicalText_eq, render_constant hterm hholds⟩
    · have hconstants : ∀ name ∈ overrides.keys,
          terms name = g'.constant (types name) ∧ g'.Holds (terms name) := by
        intro name hname
        obtain ⟨g₁, hencoded, hgrows₁⟩ := (hterms name hname).exists_encode
        rw [hend] at hgrows₁
        exact ⟨eq_instantiate_of_encode hencoded hgrows₁, (holds_encode hencoded).grows hgrows₁⟩
      have happly := apply_bindings_eq_constant hunknowns
        (fun name hname => (hconstants name hname).1) houtcome hgrows
      have hheld := holds_apply_bindings (fun name hname => (hconstants name hname).2) hholds
      have hreplaced : (type.replace (overrides.images types)).Encodable := by
        refine hterm.replace fun name other hname => ?_
        obtain ⟨u, hu, rfl⟩ := Option.map_eq_some_iff.mp hname
        exact htypes name (List.mem_map_of_mem (Entries.mem_of_get?_eq_some hu))
      rw [happly] at hheld ⊢
      exact ⟨g'.isGround_constant hreplaced, _, hreplaced.canonicalText_eq,
        render_constant hreplaced hheld⟩

end Registry

/-! ### A type with two variables, one of which stands for a type that names the other -/

namespace Registry.Nested

def overrides : Overrides :=
  [("K", ⟨0, 0, "K"⟩), ("V", ⟨0, 1, "V"⟩)]

def map : TypeExpr :=
  .declared "Map" [.typeVar "K", .declared "Pair" [.typeVar "V", .array (.typeVar "K")]]

def types (name : String) : TypeExpr :=
  if name = "K" then .declared "List" [.typeVar "V"] else .primitive "int"

def calls : List Call :=
  [.typeParameters ["K", "V"], .encode [] (types "K"), .encode overrides map, .atom "Set",
    .encode [] (types "V")]

def atom (handle : Int) (label : String) : Term :=
  .atom ⟨0, handle, label⟩

def term : Term :=
  .seq [atom 2 "Map", .unknown ⟨0, 0, "K"⟩,
    .seq [atom 3 "Pair", .unknown ⟨0, 1, "V"⟩, atom 4 "K[]"]]

def terms (name : String) : Term :=
  if name = "K" then .seq [atom 0 "List", atom 1 "V"] else atom 6 "int"

theorem render_apply_encode_nested :
    Answered (fresh 0) calls (.encode overrides map) (.term (.ok term)) ∧
      (∀ name ∈ overrides.keys,
        Answered (fresh 0) calls (.encode [] (types name)) (.term (.ok (terms name)))) ∧
      ((fresh 0).after calls).render ((overrides.bindings terms).apply term) =
        .ok "Map<List<V>, Pair<int, K[]>>" := by
  have hterm : Answered (fresh 0) calls (.encode overrides map) (.term (.ok term)) :=
    ⟨[.typeParameters ["K", "V"], .encode [] (types "K")], [.atom "Set", .encode [] (types "V")], rfl,
      rfl⟩
  have hterms : ∀ name ∈ overrides.keys,
      Answered (fresh 0) calls (.encode [] (types name)) (.term (.ok (terms name))) := by
    intro name hname
    rcases List.mem_pair.mp hname with rfl | rfl
    · exact ⟨[.typeParameters ["K", "V"]], _, rfl, rfl⟩
    · exact ⟨calls.take 4, [], rfl, rfl⟩
  have htypes : ∀ name ∈ overrides.keys, (types name).Encodable := by
    intro name _
    unfold types
    split <;> simp
  have hgenuine : map.Genuine := rfl
  obtain ⟨-, -, hok⟩ := render_apply_encode 0 hgenuine (by decide) htypes hterm
  obtain ⟨-, text, htext, hrendered⟩ := (hok term rfl).2 terms hterms
  have hwritten : (map.replace (overrides.images types)).canonicalText =
      .ok "Map<List<V>, Pair<int, K[]>>" := rfl
  rw [Except.ok.inj (htext.symm.trans hwritten)] at hrendered
  exact ⟨hterm, hterms, hrendered⟩

end Registry.Nested

end BuilderFields
