import BuilderFields.Proofs.Inference.Matching
import BuilderFields.Proofs.Registry.Calls
import BuilderFields.Proofs.Registry.Written
import BuilderFields.Proofs.Term.Passing

/-!
# Fields whose type parameters are passed on

Where `start` returns a declared type of all its type parameters, and `finish` takes such a type and returns another one
of its own type parameters, the expected type decides alone: it has to be of the name and of the number of arguments
that `finish` returns, and its arguments are then those of the field. A modifier of such a field takes the types that
are written by putting the arguments in the places of its type parameters.
-/

namespace BuilderFields

open Substitution

structure StylePair.Passes (pair : StylePair) (accumulator result : String) : Prop where
  length_eq : pair.start.typeParameters.length = pair.finish.typeParameters.length
  nodup_start : pair.start.typeParameters.Nodup
  nodup_finish : pair.finish.typeParameters.Nodup
  starts : pair.start.returnType =
    .declared accumulator (pair.start.typeParameters.map .typeVar)
  takes : pair.accumulator.type =
    .declared accumulator (pair.finish.typeParameters.map .typeVar)
  gives : pair.finish.returnType = .declared result (pair.finish.typeParameters.map .typeVar)

namespace Registry

/-- The declared names stand for the unknowns drawn for them, each for its own. -/
theorem instantiate_typeParameters (g g' : Registry) {names : List String} (hnodup : names.Nodup)
    (head : String) :
    g'.instantiate (Overrides.replacement (g.typeParameters names []).1)
        (.declared head (names.map .typeVar)) =
      .applied (g'.intern head).1 ((g.freshUnknowns names).map .unknown) := by
  have hlength : names.length = (g.freshUnknowns names).length :=
    (g.length_freshUnknowns names).symm
  have hkeys : ((names.zip (g.freshUnknowns names)).map Prod.fst).Nodup := by
    rwa [List.map_fst_zip hlength.le]
  have harguments : names.map (g'.instantiate (Overrides.replacement
      (g.typeParameters names []).1) ∘ TypeExpr.typeVar) = (g.freshUnknowns names).map .unknown := by
    refine Entries.map_eq_of_forall_zip (by simpa using hlength) fun entry hentry => ?_
    rw [List.zip_map_right, List.mem_map] at hentry
    obtain ⟨⟨name, u⟩, hmem, rfl⟩ := hentry
    have hfound : (Entries.ofList (names.zip (g.freshUnknowns names))).get? name = some u :=
      Entries.get?_ofList_of_mem hkeys hmem
    simp only [Prod.map_apply, Function.comp_apply, id, instantiate_typeVar, Overrides.replacement,
      typeParameters_eq]
    rw [← Entries.ofList, hfound]
    rfl
  rw [instantiate_declared, List.map_map, harguments]
  rfl

end Registry

namespace FieldSystem

variable {pair : StylePair} {accumulator result : String} {consumer : TypeExpr}

/-- The sides of the equations are the instances of the types, over the registry that is kept. -/
theorem exists_ofPair_eq_instantiate (pair : StylePair)
    (hstart : pair.start.returnType.Encodable)
    (htake : pair.accumulator.type.Encodable) (hgive : pair.finish.returnType.Encodable)
    (hconsumer : consumer.Encodable) :
    let field := (Registry.fresh 0).freshUnknown "F"
    let ofStart := field.2.typeParameters pair.start.typeParameters []
    let ofFinish := ofStart.2.typeParameters pair.finish.typeParameters []
    ∃ g, ofPair pair consumer = .ok {
      registry := g
      field := field.1
      equations := [
        ⟨g.instantiate (Overrides.replacement ofStart.1) pair.start.returnType,
          .unknown field.1, .startReturnsField⟩,
        ⟨.unknown field.1,
          g.instantiate (Overrides.replacement ofFinish.1) pair.accumulator.type, .finishTakesField⟩,
        ⟨g.instantiate (Overrides.replacement ofFinish.1) pair.finish.returnType,
          g.constant consumer, .finishReturnsConsumer⟩] } := by
  intro field ofStart ofFinish
  obtain ⟨started, hstarted, hstart⟩ :=
    Registry.encode_eq_instantiate ofStart.1 hstart ofFinish.2
  obtain ⟨taken, htaken, htake⟩ := Registry.encode_eq_instantiate ofFinish.1 htake
    (ofFinish.2.encode ofStart.1 pair.start.returnType).2
  generalize hg₁ : (ofFinish.2.encode ofStart.1 pair.start.returnType).2 = g₁ at *
  obtain ⟨finished, hfinished, hgive⟩ := Registry.encode_eq_instantiate ofFinish.1 hgive
    (g₁.encode ofFinish.1 pair.accumulator.type).2
  have hgrows₁ := g₁.grows_encode ofFinish.1 pair.accumulator.type
  generalize hg₂ : (g₁.encode ofFinish.1 pair.accumulator.type).2 = g₂ at *
  obtain ⟨expected, hexpected, hconsumer⟩ := Registry.encode_eq_instantiate [] hconsumer
    (g₂.encode ofFinish.1 pair.finish.returnType).2
  have hgrows₂ := g₂.grows_encode ofFinish.1 pair.finish.returnType
  generalize hg₃ : (g₂.encode ofFinish.1 pair.finish.returnType).2 = g₃ at *
  have hgrows₃ := g₃.grows_encode [] consumer
  generalize hg₄ : (g₃.encode [] consumer).2 = g₄ at *
  have hsystem : ofPair pair consumer = .ok _ :=
    ofPair_of_encode rfl rfl (Prod.ext hstarted hg₁) (Prod.ext htaken hg₂)
      (Prod.ext hfinished hg₃) (Prod.ext hexpected hg₄)
  refine ⟨g₄, hsystem.trans ?_⟩
  rw [← hstart g₄ (hgrows₁.trans (hgrows₂.trans hgrows₃)), ← htake g₄ (hgrows₂.trans hgrows₃),
    ← hgive g₄ hgrows₃, ← hconsumer g₄ (.refl g₄)]
  rfl

/-- Operations that pass their arguments through give a system of that shape. -/
theorem exists_ofPair_of_passes (h : pair.Passes accumulator result)
    (hconsumer : consumer.Encodable) :
    ∃ (p : Passing) (system : FieldSystem), ofPair pair consumer = .ok system ∧
      system.field = p.field ∧
      system.equations = p.equations (system.registry.constant consumer) ∧
      .atom p.accumulator = system.registry.atomOf accumulator ∧
      .atom p.result = system.registry.atomOf result ∧
      p.ofFinish.length = pair.finish.typeParameters.length := by
  have hencodable : ∀ (head : String) (names : List String),
      (TypeExpr.declared head (names.map .typeVar)).Encodable := by
    intro head names
    rw [TypeExpr.encodable_declared_iff, List.forall_mem_map]
    exact fun name _ => .typeVar name
  obtain ⟨g, hsystem⟩ := exists_ofPair_eq_instantiate pair (h.starts ▸ hencodable _ _)
    (h.takes ▸ hencodable _ _) (h.gives ▸ hencodable _ _) hconsumer
  rw [h.starts, h.takes, h.gives, Registry.instantiate_typeParameters _ _ h.nodup_start,
    Registry.instantiate_typeParameters _ _ h.nodup_finish,
    Registry.instantiate_typeParameters _ _ h.nodup_finish] at hsystem
  let field := (Registry.fresh 0).freshUnknown "F"
  let ofStart := field.2.typeParameters pair.start.typeParameters []
  -- The unknowns are those of a run of three calls, so none of them is drawn twice.
  have hdrawn := (Registry.fresh 0).nodup_drawn
    [.unknown "F", .typeParameters pair.start.typeParameters,
      .typeParameters pair.finish.typeParameters]
  refine ⟨{
    field := field.1
    ofStart := field.2.freshUnknowns pair.start.typeParameters
    ofFinish := ofStart.2.freshUnknowns pair.finish.typeParameters
    accumulator := (g.intern accumulator).1
    result := (g.intern result).1
    length_eq := by simpa [Registry.length_freshUnknowns] using h.length_eq
    nodup := by
      simpa [Registry.drawn, Registry.drawnBy, Registry.freshUnknowns, Registry.answer]
        using hdrawn },
    _, hsystem, rfl, rfl, rfl, rfl, Registry.length_freshUnknowns _ _⟩

/-- The field has the arguments of the expected type. -/
theorem exists_solve_of_passes (style : String) (h : pair.Passes accumulator result)
    {arguments : List TypeExpr}
    (hlength : arguments.length = pair.finish.typeParameters.length)
    (hconsumer : (TypeExpr.declared result arguments).Encodable) :
    ∃ system, ofPair pair (.declared result arguments) = .ok system ∧
      system.solve style =
        .ok (.ok ⟨system.registry, system.registry.constant (.declared accumulator arguments)⟩) := by
  obtain ⟨p, system, hsystem, hfield, hequations, haccumulator, hresult, hnumber⟩ :=
    exists_ofPair_of_passes h hconsumer
  have harguments : ∀ term ∈ arguments.map system.registry.constant, term.isGround := by
    rw [TypeExpr.encodable_declared_iff] at hconsumer
    intro term hterm
    obtain ⟨argument, hargument, rfl⟩ := List.mem_map.mp hterm
    exact system.registry.isGround_constant (hconsumer argument hargument)
  have happlied : ∀ (head : Atom) (name : String), .atom head = system.registry.atomOf name →
      Term.applied head (arguments.map system.registry.constant) =
        system.registry.constant (.declared name arguments) := by
    intro head name hhead
    rw [Registry.constant_declared, Term.applied, hhead]
  have hnumber' : p.ofFinish.length = (arguments.map system.registry.constant).length := by
    rw [List.length_map, hlength, hnumber]
  have hs := p.solve_applied hnumber' harguments
  have hterm := p.resolve_field hnumber' harguments
  rw [happlied _ _ hresult, ← hequations] at hs
  rw [happlied _ _ haccumulator, ← hfield] at hterm
  have hground : (system.registry.constant (.declared accumulator arguments)).isGround := by
    rw [← happlied _ _ haccumulator]
    simpa [Term.applied, Term.isGround_seq_iff, Term.isGround_iff] using harguments
  exact ⟨system, hsystem, solve_of_isGround hs hterm hground⟩

/-- Every other expected type clashes. -/
theorem exists_solve_eq_clash_of_passes (style : String) (h : pair.Passes accumulator result)
    (hconsumer : consumer.Encodable)
    (hother : ¬ ∃ arguments, consumer = .declared result arguments ∧
      arguments.length = pair.finish.typeParameters.length) :
    ∃ system, ofPair pair consumer = .ok system ∧
      ∃ it, system.solve style = .ok (.error it) := by
  obtain ⟨p, system, hsystem, -, hequations, -, hresult, hnumber⟩ :=
    exists_ofPair_of_passes h hconsumer
  have hclash := p.exists_solve_eq_clash (system.registry.isGround_constant hconsumer) (by
    intro terms hterms hlength
    rw [Term.applied, hresult, Registry.constant_eq_seq_iff] at hterms
    obtain ⟨arguments, hdeclared, rfl⟩ := hterms
    exact hother ⟨arguments, hdeclared, by rw [← hnumber, ← hlength, List.length_map]⟩)
  rw [← hequations] at hclash
  obtain ⟨clash, hclash⟩ := hclash
  obtain ⟨place, -, heq⟩ := exists_solve_eq_of_clash hclash style
  exact ⟨system, hsystem, _, heq⟩

end FieldSystem

/-! ### The modifiers -/

-- With these types in the places of its type parameters the modifier returns the type of the field, which leaves none
-- of its parameters open.
structure Signature.Updates (modifier : Signature) (σ : String → Option TypeExpr)
    (type : TypeExpr) : Prop where
  own : ∀ name, (σ name).isSome ↔ name ∈ modifier.typeParameters
  encodable : ∀ name other, σ name = some other → other.Encodable
  takes : modifier.parameters ≠ []
  returned : modifier.returnType.Encodable
  others : ∀ parameter ∈ modifier.parameters.tail, parameter.type.Encodable
  closed : modifier.firstOpen? = none
  returns : modifier.returnType.replace σ = type

def Signature.textsAfterField (modifier : Signature) (σ : String → Option TypeExpr) : List String :=
  modifier.parameters.tail.map fun parameter => (parameter.type.replace σ).text

namespace FieldInference

variable {inference : FieldInference} {modifier : Signature} {type : TypeExpr}

/-- A modifier changes the registry by declaring its type parameters and encoding its types, however it ends. -/
theorem modifierTypes_of_calls {P : Registry → Prop}
    (hdeclare : ∀ g names, P g → P (g.typeParameters names []).2)
    (hencode : ∀ g overrides type, P g → P (g.encode overrides type).2) (modifier : Signature)
    (h : P inference.registry) : P (inference.modifierTypes modifier).2 := by
  unfold modifierTypes
  split
  · exact h
  · have hdeclared := hdeclare inference.registry modifier.typeParameters h
    generalize inference.registry.typeParameters modifier.typeParameters [] = declared
      at hdeclared ⊢
    obtain ⟨overrides, g⟩ := declared
    have hencoded := hencode g overrides modifier.returnType hdeclared
    dsimp only
    generalize g.encode overrides modifier.returnType = encoded at hencoded ⊢
    obtain ⟨returned, g'⟩ := encoded
    cases returned with
    | error fault => exact hencoded
    | ok returned =>
        dsimp only
        split
        · exact hencoded
        · split <;> exact hencoded
        · exact parameterTypes_of_encode (fun g => hencode g overrides) _ _ hencoded

theorem grows_modifierTypes (inference : FieldInference) (modifier : Signature) :
    inference.registry.Grows (inference.modifierTypes modifier).2 :=
  modifierTypes_of_calls (fun g names h => h.trans (g.grows_typeParameters names []))
    (fun g overrides type h => h.trans (g.grows_encode overrides type)) modifier (.refl _)

/-- The field is rendered as its type is written. -/
theorem fieldType_eq (htype : type.Encodable)
    (hterm : inference.term = inference.registry.constant type)
    (hholds : inference.registry.Holds inference.term) : inference.fieldType = .ok type.text := by
  have hground : inference.term.isGround := hterm ▸ inference.registry.isGround_constant htype
  obtain ⟨text, htext⟩ := Registry.exists_render_eq_ok hholds hground
  have hwritten : text = type.text := Registry.eq_text_of_render_constant htype (hterm ▸ htext)
  rw [fieldType, htext, hwritten]
  rfl

/-- A modifier that updates the field type is typed by what its names stand for. -/
theorem modifierTypes_eq_of_updates {σ : String → Option TypeExpr} (h : modifier.Updates σ type)
    (hterm : inference.term = inference.registry.constant type)
    (hholds : inference.registry.Holds inference.term) :
    (inference.modifierTypes modifier).1 = .ok (.ok (modifier.textsAfterField σ)) := by
  have htype : type.Encodable := h.returns ▸ h.returned.replace h.encodable
  have hground : inference.term.isGround := hterm ▸ inference.registry.isGround_constant htype
  have hexact := matchedExactly_of_holds hholds hground h.takes h.returned h.others
  have hgrows := inference.grows_modifierTypes modifier
  generalize (inference.modifierTypes modifier).2 = g at hexact hgrows
  have hmatches : inference.Matches modifier g fun name => (σ name).map g.constant := by
    refine ⟨fun name => ?_, fun name term hname => ?_, ?_⟩
    · rw [Option.isSome_map, h.own]
    · obtain ⟨other, hother, rfl⟩ := Option.map_eq_some_iff.mp hname
      exact g.isGround_constant (h.encodable name other hother)
    · rw [g.instantiate_eq_constant_replace σ h.returned, h.returns, hterm]
      exact hgrows.constant_eq htype (hterm ▸ hholds)
  obtain ⟨types, houtcome, hrendered⟩ := hexact.types _ hmatches h.closed
  have hwritten : types.map .ok =
      (modifier.textsAfterField σ).map (Except.ok (ε := RenderingFault)) := by
    rw [hrendered, Signature.textsAfterField, List.map_map]
    refine List.map_congr_left fun parameter hparameter => ?_
    -- Whatever is rendered for the parameter is its type with the types of the field in it.
    obtain ⟨text, -, htext⟩ : ∃ text ∈ types, .ok text =
        g.render (g.instantiate (fun name => (σ name).map g.constant) parameter.type) := by
      rw [← List.mem_map, hrendered]
      exact List.mem_map_of_mem hparameter
    have hencodable := h.others parameter hparameter
    rw [g.instantiate_eq_constant_replace σ hencodable] at htext ⊢
    rw [← htext, Registry.eq_text_of_render_constant (hencodable.replace h.encodable) htext.symm]
    rfl
  rw [houtcome, List.map_injective_iff.mpr (fun _ _ => Except.ok.inj) hwritten]

end FieldInference

end BuilderFields
