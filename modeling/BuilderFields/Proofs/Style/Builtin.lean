import BuilderFields.Proofs.Inference.Passing
import BuilderFields.Proofs.Signature.Legible
import BuilderFields.Style.Builtin

/-!
# What the built-in styles infer

A built-in style is what the texts of its operations are read as. It passes its type parameters on, and its modifiers
return the accumulator. So it applies to the types of one name with one number of arguments, and to no others, and its
texts are those of its operations with the argument in the places of their type parameters. It makes no difference how
the argument is built, nor whether it mentions type variables that are named as the type parameters of the style.
-/

namespace BuilderFields

def Signature.filledWith (signature : Signature) (argument : TypeExpr) : String → Option TypeExpr :=
  fun name => if name ∈ signature.typeParameters then some argument else none

namespace FieldStyle

def outcome (style : FieldStyle) (consumer : TypeExpr) :
    Except Obstacle (Determined FieldInference) :=
  (inferFieldLogged (some style.start) (some style.finish) consumer style.name).outcome

/-- The style infers a field of this type, and its modifiers take these types after the field, whatever the registry
has grown to. -/
def Fills (style : FieldStyle) (consumer : TypeExpr) (fieldType : String)
    (modifiers : List (String × List String)) : Prop :=
  ∃ inference, style.outcome consumer = .ok (.ok inference) ∧
    inference.fieldType = .ok fieldType ∧
    ∀ g, inference.registry.Grows g →
      (style.modifiers.map fun modifier => (modifier.name,
        (FieldInference.modifierTypesLogged ⟨g, inference.term⟩ modifier).1.outcome)) =
      modifiers.map fun modifier => (modifier.1, .ok (.ok modifier.2))

/-- The style does not determine a field for the expected type. -/
def Declines (style : FieldStyle) (consumer : TypeExpr) : Prop :=
  ∃ it, style.outcome consumer = .ok (.error it)

variable {style : FieldStyle} {pair : StylePair} {accumulator result : String}
  {arguments : List TypeExpr} {argument consumer : TypeExpr}

/-- A style that passes its arguments through infers the accumulator with the arguments of the consumer. -/
theorem fills_of_passes
    (hpair : StylePair.check (some style.start) (some style.finish) style.name = .ok pair)
    (h : pair.Passes accumulator result)
    (hlength : arguments.length = pair.finish.typeParameters.length)
    (hconsumer : (TypeExpr.declared result arguments).Encodable)
    {σ : Signature → String → Option TypeExpr}
    (hmodifiers : ∀ modifier ∈ style.modifiers,
      modifier.Updates (σ modifier) (.declared accumulator arguments)) :
    style.Fills (.declared result arguments) (TypeExpr.declared accumulator arguments).text
      (style.modifiers.map fun modifier => (modifier.name, modifier.textsAfterField (σ modifier))) := by
  obtain ⟨system, hsystem, hsolve⟩ :=
    FieldSystem.exists_solve_of_passes style.name h hlength hconsumer
  have haccumulator : (TypeExpr.declared accumulator arguments).Encodable := by
    rw [TypeExpr.encodable_declared_iff] at hconsumer ⊢
    exact hconsumer
  have hholds := FieldSystem.holds_term_of_solve hsystem hsolve
  refine ⟨_, (outcome_inferFieldLogged_of_ofPair hpair hsystem).trans hsolve,
    FieldInference.fieldType_eq haccumulator rfl hholds, fun g hgrows => ?_⟩
  rw [List.map_map]
  refine List.map_congr_left fun modifier hmodifier => ?_
  have hterm := (hgrows.constant_eq haccumulator hholds).symm
  rw [outcome_modifierTypesLogged, FieldInference.modifierTypes_eq_of_updates
    (hmodifiers modifier hmodifier) hterm (hholds.grows hgrows)]
  rfl

/-- A style that passes its arguments through infers nothing for any other consumer. -/
theorem declines_of_passes
    (hpair : StylePair.check (some style.start) (some style.finish) style.name = .ok pair)
    (h : pair.Passes accumulator result) (hconsumer : consumer.Encodable)
    (hother : ¬ ∃ arguments, consumer = .declared result arguments ∧
      arguments.length = pair.finish.typeParameters.length) : style.Declines consumer := by
  obtain ⟨system, hsystem, it, hit⟩ :=
    FieldSystem.exists_solve_eq_clash_of_passes style.name h hconsumer hother
  exact ⟨it, (outcome_inferFieldLogged_of_ofPair hpair hsystem).trans hit⟩

structure AppliesOne (modifier : Signature) (accumulator : String) (argument : TypeExpr) : Prop where
  takes : modifier.parameters ≠ []
  returned : modifier.returnType.Encodable
  others : ∀ parameter ∈ modifier.parameters.tail, parameter.type.Encodable
  closed : modifier.firstOpen? = none
  returns : modifier.returnType.replace (modifier.filledWith argument) =
    .declared accumulator [argument]

/-- A modifier of a one-argument accumulator is typed with that argument. -/
theorem AppliesOne.updates {modifier : Signature} (h : AppliesOne modifier accumulator argument)
    (hargument : argument.Encodable) :
    modifier.Updates (modifier.filledWith argument) (.declared accumulator [argument]) where
  own := fun name => by simp [Signature.filledWith]
  encodable := by
    intro name other hother
    unfold Signature.filledWith at hother
    split at hother
    · cases hother
      exact hargument
    · cases hother
  takes := h.takes
  returned := h.returned
  others := h.others
  closed := h.closed
  returns := h.returns

/-- A style with one type parameter fills its result of any one argument. -/
theorem fills_of_passes_one
    (hpair : StylePair.check (some style.start) (some style.finish) style.name = .ok pair)
    (h : pair.Passes accumulator result) (hone : pair.finish.typeParameters.length = 1)
    (hargument : argument.Encodable)
    (hmodifiers : ∀ modifier ∈ style.modifiers, AppliesOne modifier accumulator argument) :
    style.Fills (.declared result [argument]) (TypeExpr.declared accumulator [argument]).text
      (style.modifiers.map fun modifier =>
        (modifier.name, modifier.textsAfterField (modifier.filledWith argument))) := by
  have hlength : [argument].length = pair.finish.typeParameters.length := hone.symm
  exact fills_of_passes hpair h hlength (by simpa using hargument)
    fun modifier hmodifier => (hmodifiers modifier hmodifier).updates hargument

/-- A style with one type parameter declines what is not its result of one argument. -/
theorem declines_of_passes_one
    (hpair : StylePair.check (some style.start) (some style.finish) style.name = .ok pair)
    (h : pair.Passes accumulator result) (hone : pair.finish.typeParameters.length = 1)
    (hconsumer : consumer.Encodable)
    (hother : ¬ ∃ argument, consumer = .declared result [argument]) : style.Declines consumer := by
  refine declines_of_passes hpair h hconsumer ?_
  rintro ⟨arguments, rfl, hlength⟩
  obtain ⟨argument, rfl⟩ := List.length_eq_one_iff.mp (hlength.trans hone)
  exact hother ⟨argument, rfl⟩

/-! ### How the built-in styles are written -/

/-- Operations that are read back from their texts are sorted as they are. -/
theorem foldlM_map_text {name : String} {scope : List String} {operations : List Signature}
    (hread : ∀ operation ∈ operations, Signature.parse operation.text scope = .ok operation)
    (sorted : SortedOperations) :
    (operations.map Signature.text).foldlM (fun sorted text => do
        let operation ← (Signature.parse text scope).mapError Obstacle.unreadable
        sorted.add name operation) sorted =
      operations.foldlM (SortedOperations.add name) sorted := by
  induction operations generalizing sorted with
  | nil => rfl
  | cons operation rest ih =>
      obtain ⟨hfirst, hrest⟩ := List.forall_mem_cons.mp hread
      rw [List.map_cons, List.foldlM_cons, List.foldlM_cons, hfirst]
      exact bind_congr fun sorted' => ih hrest sorted'

/-- Operations that are read back from their texts make up the same style. -/
theorem parse_map_text {name : String} {scope : List String} {operations : List Signature}
    (hread : ∀ operation ∈ operations, Signature.parse operation.text scope = .ok operation) :
    parse name (operations.map Signature.text) scope = ofOperations name operations := by
  unfold parse ofOperations
  dsimp only
  rw [foldlM_map_text hread]

theorem isLegible_of_mem_builtins : ∀ style ∈ builtins, ∀ operation ∈ style.operations, operation.IsLegible [] := by
  decide +kernel

/-- The built-in styles are what their operations are read as. -/
theorem parse_operations_of_mem_builtins {style : FieldStyle} (h : style ∈ builtins) :
    parse style.name (style.operations.map Signature.text) [] = .ok style := by
  rw [parse_map_text fun operation hmem =>
    Signature.parse_text_iff.mpr (isLegible_of_mem_builtins style h operation hmem)]
  revert style
  simp only [builtins, List.forall_mem_cons]
  exact ⟨rfl, rfl, rfl, rfl, List.forall_mem_nil _⟩

/-! ### What each style passes on -/

theorem passes_arrayListAdding :
    StylePair.Passes ⟨arrayListAdding.start, arrayListAdding.finish,
      ⟨"list", applied "java.util.ArrayList" "T"⟩⟩ "java.util.ArrayList" "java.util.ArrayList" :=
  ⟨rfl, by decide, by decide, rfl, rfl, rfl⟩

theorem passes_immutableListAdding :
    StylePair.Passes ⟨immutableListAdding.start, immutableListAdding.finish,
      ⟨"from", applied "com.google.common.collect.ImmutableList.Builder" "E"⟩⟩
      "com.google.common.collect.ImmutableList.Builder"
      "com.google.common.collect.ImmutableList" :=
  ⟨rfl, by decide, by decide, rfl, rfl, rfl⟩

theorem passes_optionalSetting :
    StylePair.Passes ⟨optionalSetting.start, optionalSetting.finish,
      ⟨"from", applied "com.google.common.base.Optional" "E"⟩⟩
      "com.google.common.base.Optional" "com.google.common.base.Optional" :=
  ⟨rfl, by decide, by decide, rfl, rfl, rfl⟩

theorem passes_stringAppending :
    StylePair.Passes ⟨stringAppending.start, stringAppending.finish,
      ⟨"from", .declared "java.lang.StringBuilder" []⟩⟩ "java.lang.StringBuilder"
      "java.lang.String" :=
  ⟨rfl, by decide, by decide, rfl, rfl, rfl⟩

theorem fills_arrayListAdding (hargument : argument.Encodable) :
    arrayListAdding.Fills (.declared "java.util.ArrayList" [argument])
      ("java.util.ArrayList<" ++ argument.text ++ ">")
      [("addTo", [argument.text]), ("addAllTo", ["java.lang.Iterable<" ++ argument.text ++ ">"])] := by
  have hmodifiers : ∀ modifier ∈ arrayListAdding.modifiers,
      AppliesOne modifier "java.util.ArrayList" argument := by
    simp only [arrayListAdding, List.forall_mem_cons]
    refine ⟨?_, ?_, List.forall_mem_nil _⟩
    · exact ⟨by simp, by simp [applied], by simp, rfl, by simp [applied, Signature.filledWith]⟩
    · exact ⟨by simp, by simp [applied], by simp [applied], rfl,
        by simp [applied, Signature.filledWith]⟩
  have hfills := fills_of_passes_one rfl passes_arrayListAdding rfl hargument hmodifiers
  simpa [arrayListAdding, applied, Signature.textsAfterField, Signature.filledWith, TypeExpr.text,
    TypeExpr.textAll, Text.commaJoin] using hfills

theorem fills_immutableListAdding (hargument : argument.Encodable) :
    immutableListAdding.Fills (.declared "com.google.common.collect.ImmutableList" [argument])
      ("com.google.common.collect.ImmutableList.Builder<" ++ argument.text ++ ">")
      [("addTo", [argument.text]), ("addAllTo", ["java.lang.Iterable<" ++ argument.text ++ ">"])] := by
  have hmodifiers : ∀ modifier ∈ immutableListAdding.modifiers,
      AppliesOne modifier "com.google.common.collect.ImmutableList.Builder" argument := by
    simp only [immutableListAdding, List.forall_mem_cons]
    refine ⟨?_, ?_, List.forall_mem_nil _⟩
    · exact ⟨by simp, by simp [applied], by simp, rfl, by simp [applied, Signature.filledWith]⟩
    · exact ⟨by simp, by simp [applied], by simp [applied], rfl,
        by simp [applied, Signature.filledWith]⟩
  have hfills := fills_of_passes_one rfl passes_immutableListAdding rfl hargument hmodifiers
  simpa [immutableListAdding, applied, Signature.textsAfterField, Signature.filledWith,
    TypeExpr.text, TypeExpr.textAll, Text.commaJoin] using hfills

theorem fills_optionalSetting (hargument : argument.Encodable) :
    optionalSetting.Fills (.declared "com.google.common.base.Optional" [argument])
      ("com.google.common.base.Optional<" ++ argument.text ++ ">") [("set", [argument.text])] := by
  have hmodifiers : ∀ modifier ∈ optionalSetting.modifiers,
      AppliesOne modifier "com.google.common.base.Optional" argument := by
    simp only [optionalSetting, List.forall_mem_cons]
    refine ⟨?_, List.forall_mem_nil _⟩
    exact ⟨by simp, by simp [applied], by simp, rfl, by simp [applied, Signature.filledWith]⟩
  have hfills := fills_of_passes_one rfl passes_optionalSetting rfl hargument hmodifiers
  simpa [optionalSetting, applied, Signature.textsAfterField, Signature.filledWith, TypeExpr.text,
    TypeExpr.textAll, Text.commaJoin] using hfills

theorem fills_stringAppending :
    stringAppending.Fills (.declared "java.lang.String" []) "java.lang.StringBuilder"
      [("appendTo", ["java.lang.String"])] := by
  have hupdates : ∀ modifier ∈ stringAppending.modifiers,
      modifier.Updates (fun _ => none) (.declared "java.lang.StringBuilder" []) := by
    simp only [stringAppending, List.forall_mem_cons]
    refine ⟨?_, List.forall_mem_nil _⟩
    exact ⟨by simp, by simp, by simp, by simp, by simp, rfl, by simp⟩
  have hfills := fills_of_passes rfl passes_stringAppending rfl (by simp) hupdates
  simpa [stringAppending, Signature.textsAfterField, TypeExpr.text] using hfills

/-- **What the built-in styles infer.** Each style applies to the types of one name, with one argument or with none,
whatever the argument is, and is undetermined for all others. -/
theorem builtins_fill_or_decline {consumer : TypeExpr} (hconsumer : consumer.Encodable) :
    ((∀ argument, consumer = .declared "java.util.ArrayList" [argument] →
        ∃ written, argument.canonicalText = .ok written ∧
          arrayListAdding.Fills consumer ("java.util.ArrayList<" ++ written ++ ">")
            [("addTo", [written]), ("addAllTo", ["java.lang.Iterable<" ++ written ++ ">"])]) ∧
      ((¬ ∃ argument, consumer = .declared "java.util.ArrayList" [argument]) →
        arrayListAdding.Declines consumer)) ∧
    ((∀ argument, consumer = .declared "com.google.common.collect.ImmutableList" [argument] →
        ∃ written, argument.canonicalText = .ok written ∧
          immutableListAdding.Fills consumer
            ("com.google.common.collect.ImmutableList.Builder<" ++ written ++ ">")
            [("addTo", [written]), ("addAllTo", ["java.lang.Iterable<" ++ written ++ ">"])]) ∧
      ((¬ ∃ argument, consumer = .declared "com.google.common.collect.ImmutableList" [argument]) →
        immutableListAdding.Declines consumer)) ∧
    ((∀ argument, consumer = .declared "com.google.common.base.Optional" [argument] →
        ∃ written, argument.canonicalText = .ok written ∧
          optionalSetting.Fills consumer ("com.google.common.base.Optional<" ++ written ++ ">")
            [("set", [written])]) ∧
      ((¬ ∃ argument, consumer = .declared "com.google.common.base.Optional" [argument]) →
        optionalSetting.Declines consumer)) ∧
    ((consumer = .declared "java.lang.String" [] →
        stringAppending.Fills consumer "java.lang.StringBuilder"
          [("appendTo", ["java.lang.String"])]) ∧
      (consumer ≠ .declared "java.lang.String" [] → stringAppending.Declines consumer)) := by
  have hargument : ∀ {name argument}, consumer = .declared name [argument] →
      argument.Encodable := by
    rintro name argument rfl
    simpa using hconsumer
  refine ⟨⟨?_, ?_⟩, ⟨?_, ?_⟩, ⟨?_, ?_⟩, ⟨?_, ?_⟩⟩
  · intro argument heq
    exact ⟨_, (hargument heq).canonicalText_eq, heq ▸ fills_arrayListAdding (hargument heq)⟩
  · exact declines_of_passes_one rfl passes_arrayListAdding rfl hconsumer
  · intro argument heq
    exact ⟨_, (hargument heq).canonicalText_eq, heq ▸ fills_immutableListAdding (hargument heq)⟩
  · exact declines_of_passes_one rfl passes_immutableListAdding rfl hconsumer
  · intro argument heq
    exact ⟨_, (hargument heq).canonicalText_eq, heq ▸ fills_optionalSetting (hargument heq)⟩
  · exact declines_of_passes_one rfl passes_optionalSetting rfl hconsumer
  · rintro rfl
    exact fills_stringAppending
  · intro hother
    refine declines_of_passes rfl passes_stringAppending hconsumer ?_
    rintro ⟨arguments, rfl, hlength⟩
    obtain rfl := List.eq_nil_of_length_eq_zero hlength
    exact hother rfl

/-! ### `java.util.ArrayList<java.util.Map<T, E[]>>`, where `T` and `E` are type variables -/

def listOfMaps : TypeExpr :=
  .declared "java.util.ArrayList" [
    .declared "java.util.Map" [.typeVar "T", .array (.typeVar "E")]]

theorem fill_or_decline_listOfMaps :
    listOfMaps.Encodable ∧
      arrayListAdding.Fills listOfMaps "java.util.ArrayList<java.util.Map<T, E[]>>" [
        ("addTo", ["java.util.Map<T, E[]>"]),
        ("addAllTo", ["java.lang.Iterable<java.util.Map<T, E[]>>"])] ∧
      immutableListAdding.Declines listOfMaps ∧ optionalSetting.Declines listOfMaps ∧
      stringAppending.Declines listOfMaps := by
  have hencodable : listOfMaps.Encodable := by
    simp [listOfMaps, TypeExpr.Genuine, TypeExpr.foreign?]
  obtain ⟨⟨hlist, -⟩, ⟨-, himmutable⟩, ⟨-, hoptional⟩, ⟨-, hstring⟩⟩ :=
    builtins_fill_or_decline hencodable
  obtain ⟨written, hwritten, hfills⟩ := hlist _ rfl
  cases hwritten
  exact ⟨hencodable, hfills, himmutable (by simp [listOfMaps]), hoptional (by simp [listOfMaps]),
    hstring (by simp [listOfMaps])⟩

end FieldStyle

end BuilderFields
