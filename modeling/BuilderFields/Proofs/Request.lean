import BuilderFields.Plan.Document
import BuilderFields.Proofs.Entries
import BuilderFields.Proofs.Outcome
import BuilderFields.Request

/-!
# What a request document says

A document that is accepted says the same wherever its entries stand: the path of a node goes into the message of a
defect and nowhere else. So reading is described entry by entry. A method entry has a name, type variables and parameter
entries, and a parameter entry has a name, a type and the style that it chooses. What the name of a style means is left
open here, since it is looked up in a table while reading and in the document by whoever wrote it.
-/

namespace BuilderFields

namespace Request

abbrev StyleMeaning := String → FieldStyle → Prop

inductive Chooses (meaning : StyleMeaning) (entry : Entries String Json) : Option FieldStyle → Prop
  | absent (h : entry.get? "style" = none) : Chooses meaning entry none
  | null (h : entry.get? "style" = some .null) : Chooses meaning entry none
  | named {name style} (h : entry.get? "style" = some (.text name)) (hstyle : meaning name style) :
      Chooses meaning entry (some style)

def ParameterEntry (meaning : StyleMeaning) (scope : List String) (json : Json)
    (info : FieldInfo) : Prop :=
  ∃ (entry : Entries String Json) (text : String), json = .object entry ∧
    entry.get? "name" = some (.text info.name) ∧ entry.get? "type" = some (.text text) ∧
    TypeExpr.parse text scope = .ok info.parameter.type ∧ Chooses meaning entry info.style

def MethodEntry (meaning : StyleMeaning) (json : Json) (name : String) (infos : List FieldInfo) :
    Prop :=
  ∃ (entry : Entries String Json) (scope : List String) (parameters : List Json),
    json = .object entry ∧ entry.get? "name" = some (.text name) ∧
    (entry.get? "type_variables").getD (.array []) = Json.texts scope ∧
    (entry.get? "parameters").getD (.array []) = .array parameters ∧
    List.Forall₂ (ParameterEntry meaning scope) parameters infos

variable {path key : String} {json : Json} {entry : Entries String Json}
  {styles : Entries String FieldStyle} {scope : List String}

/-! ### Shapes -/

theorem expectObject_eq_ok_iff : expectObject path json = .ok entry ↔ json = .object entry := by
  cases json <;> simp [expectObject]

theorem expectArray_eq_ok_iff {items : List Json} :
    expectArray path json = .ok items ↔ json = .array items := by
  cases json <;> simp [expectArray]

theorem expectText_eq_ok_iff {value : String} :
    expectText path json = .ok value ↔ json = .text value := by
  cases json <;> simp [expectText]

/-- Items that are read with their places are read one by one if the places do not matter. -/
theorem mapM_zipIdx_eq_ok_iff {ε α β : Type} {f : α × Nat → Except ε β} {R : α → β → Prop}
    (hf : ∀ item index value, f (item, index) = .ok value ↔ R item value) {items : List α}
    {values : List β} : items.zipIdx.mapM f = .ok values ↔ List.Forall₂ R items values := by
  have hplaces : (fun (item : α × Nat) value => f item = .ok value) = fun item => R item.1 :=
    funext fun item => funext fun value => propext (hf item.1 item.2 value)
  rw [mapM_eq_ok_iff, hplaces, ← List.forall₂_map_left_iff (R := R) (f := Prod.fst),
    List.zipIdx_map_fst]

theorem expectTexts_eq_ok_iff {values : List String} :
    expectTexts path json = .ok values ↔ json = Json.texts values := by
  have hitems : ∀ items : List Json,
      (items.zipIdx.mapM fun item => expectText (indexed path item.2) item.1) = .ok values ↔
        items = values.map .text := by
    intro items
    rw [mapM_zipIdx_eq_ok_iff (R := fun item value => item = .text value) fun _ _ _ =>
      expectText_eq_ok_iff, ← List.forall₂_eq_eq_eq, List.forall₂_map_right_iff]
  unfold expectTexts Json.texts
  simp only [bind_eq_ok_iff, expectArray_eq_ok_iff, hitems]
  constructor
  · rintro ⟨items, rfl, rfl⟩
    rfl
  · rintro rfl
    exact ⟨_, rfl, rfl⟩

theorem textMember_eq_ok_iff {value : String} :
    textMember path entry key = .ok value ↔ entry.get? key = some (.text value) := by
  unfold textMember
  cases entry.get? key with
  | none => simp
  | some json => simp [expectText_eq_ok_iff]

/-! ### Entries -/

def tableMeaning (styles : Entries String FieldStyle) : StyleMeaning :=
  fun name style => styles.get? name = some style

/-- The style that is read is the one that the entry chooses. -/
theorem readChoice_eq_ok_iff {choice : Option FieldStyle} :
    readChoice styles path entry = .ok choice ↔ Chooses (tableMeaning styles) entry choice := by
  unfold readChoice
  constructor
  · intro h
    split at h
    · rename_i hmember
      cases h
      exact .absent hmember
    · rename_i hmember
      cases h
      exact .null hmember
    · rename_i member hnull hmember
      obtain ⟨name, hname, hfound⟩ := exists_of_bind_eq_ok h
      obtain rfl := expectText_eq_ok_iff.mp hname
      split at hfound
      · cases hfound
      · rename_i style hstyle
        cases hfound
        exact .named hmember hstyle
  · intro h
    cases h with
    | absent h => rw [h]
    | null h => rw [h]
    | named h hstyle =>
        rw [h]
        refine bind_eq_ok_iff.mpr ⟨_, expectText_eq_ok_iff.mpr rfl, ?_⟩
        rw [hstyle]

/-- A parameter is read exactly from an entry that documents it. -/
theorem readParameter_eq_ok_iff {info : FieldInfo} :
    readParameter styles scope path json = .ok info ↔
      ParameterEntry (tableMeaning styles) scope json info := by
  unfold readParameter ParameterEntry
  simp only [bind_eq_ok_iff, expectObject_eq_ok_iff, textMember_eq_ok_iff, mapError_eq_ok_iff,
    readChoice_eq_ok_iff]
  constructor
  · rintro ⟨entry, rfl, name, hname, text, htext, type, htype, style, hstyle, heq⟩
    cases heq
    exact ⟨entry, text, rfl, hname, htext, htype, hstyle⟩
  · rintro ⟨entry, text, rfl, hname, htext, htype, hstyle⟩
    exact ⟨entry, rfl, _, hname, text, htext, _, htype, _, hstyle, rfl⟩

theorem readParameters_eq_ok_iff {items : List Json} {infos : List FieldInfo} :
    (items.zipIdx.mapM fun item => readParameter styles scope (indexed path item.2) item.1) =
        .ok infos ↔ List.Forall₂ (ParameterEntry (tableMeaning styles) scope) items infos :=
  mapM_zipIdx_eq_ok_iff fun _ _ _ => readParameter_eq_ok_iff

def Requests (meaning : StyleMeaning) (json : Json) (method : MethodRequest) : Prop :=
  ∃ infos, MethodEntry meaning json method.name infos ∧
    method.parameters = infos.map FieldInfo.parameter ∧ method.styles = chosenStyles infos

/-- A method is read exactly from an entry that requests it. -/
theorem readMethod_eq_ok_iff {method : MethodRequest} :
    readMethod styles path json = .ok method ↔ Requests (tableMeaning styles) json method := by
  unfold readMethod Requests MethodEntry
  simp only [bind_eq_ok_iff, expectObject_eq_ok_iff, textMember_eq_ok_iff, expectTexts_eq_ok_iff,
    expectArray_eq_ok_iff, readParameters_eq_ok_iff]
  constructor
  · rintro ⟨entry, rfl, name, hname, scope, hscope, parameters, hparameters, infos, hinfos, heq⟩
    cases heq
    exact ⟨infos, ⟨entry, scope, parameters, rfl, hname, hscope, hparameters, hinfos⟩, rfl, rfl⟩
  · rintro ⟨infos, ⟨entry, scope, parameters, rfl, hname, hscope, hparameters, hinfos⟩, hlist, hstyles⟩
    refine ⟨entry, rfl, _, hname, scope, hscope, parameters, hparameters, infos, hinfos, ?_⟩
    rw [← hlist, ← hstyles]

/-! ### The document -/

/-- A style is read from a list of operations that make it. -/
theorem readStyle_eq_ok_iff {definition : String × Json} {later : Entries String FieldStyle} :
    readStyle styles definition = .ok later ↔
      ∃ operations style, definition.2 = Json.texts operations ∧
        FieldStyle.parse definition.1 operations [] = .ok style ∧
        later = styles.put definition.1 style := by
  unfold readStyle
  simp only [bind_eq_ok_iff, expectTexts_eq_ok_iff, mapError_eq_ok_iff]
  constructor
  · rintro ⟨operations, hoperations, style, hstyle, heq⟩
    exact ⟨operations, style, hoperations, hstyle, (Except.ok.inj heq).symm⟩
  · rintro ⟨operations, style, hoperations, hstyle, rfl⟩
    exact ⟨operations, hoperations, style, hstyle, rfl⟩

/-- The document's own style of that name, which is the last one defined under it, or else the built-in one. -/
def documentMeaning (custom : Entries String Json) : StyleMeaning := fun name style =>
  match (Entries.ofList custom).get? name with
  | some definition => ∃ operations, definition = Json.texts operations ∧
      FieldStyle.parse name operations [] = .ok style
  | none => FieldStyle.builtinTable.get? name = some style

theorem texts_injective : Function.Injective Json.texts := by
  intro values values' h
  rw [Json.texts, Json.texts, Json.array.injEq] at h
  exact List.map_injective_iff.mpr (fun _ _ htext => Json.text.inj htext) h

/-- What the names mean in the document is what the table has for them. -/
theorem tableMeaning_eq_documentMeaning {custom : Entries String Json}
    (h : custom.foldlM readStyle FieldStyle.builtinTable = .ok styles) :
    tableMeaning styles = documentMeaning custom := by
  induction custom using List.reverseRecOn generalizing styles with
  | nil =>
      cases h
      rfl
  | append_singleton before definition ih =>
      rw [List.foldlM_append] at h
      obtain ⟨table, htable, h⟩ := exists_of_bind_eq_ok h
      obtain ⟨table', hread, hrest⟩ := exists_of_bind_eq_ok h
      cases hrest
      obtain ⟨operations, found, hoperations, hfound, rfl⟩ := readStyle_eq_ok_iff.mp hread
      have hlast : Entries.ofList (before ++ [definition]) =
          (Entries.ofList before).put definition.1 definition.2 :=
        List.foldl_append
      funext name style
      have hbefore := congrFun (congrFun (ih htable) name) style
      unfold tableMeaning documentMeaning at hbefore ⊢
      rw [hlast, Entries.get?_put, Entries.get?_put]
      by_cases hname : name = definition.1
      · subst hname
        rw [if_pos rfl, if_pos rfl, hoperations]
        refine propext ⟨?_, ?_⟩
        · rintro ⟨⟩
          exact ⟨operations, rfl, hfound⟩
        · rintro ⟨operations', heq, hstyle⟩
          obtain rfl := texts_injective heq
          rw [Except.ok.inj (hfound.symm.trans hstyle)]
      · rw [if_neg hname, if_neg hname]
        exact hbefore

/-- The document has these definitions of styles and these method entries, none where it leaves them out. -/
def Lists (json : Json) (custom : Entries String Json) (entries : List Json) : Prop :=
  ∃ document : Entries String Json, json = .object document ∧
    (document.get? "styles").getD (.object []) = .object custom ∧
    (document.get? "methods").getD (.array []) = .array entries

theorem readMethods_eq_ok_iff {entries : List Json} {methods : List MethodRequest} :
    (entries.zipIdx.mapM fun item => readMethod styles (indexed path item.2) item.1) =
        .ok methods ↔ List.Forall₂ (Requests (tableMeaning styles)) entries methods :=
  mapM_zipIdx_eq_ok_iff fun _ _ _ => readMethod_eq_ok_iff

/-- **A document is accepted entry by entry**, once its styles are defined. -/
theorem ofJson_eq_ok_iff {request : Request} :
    ofJson json = .ok request ↔ ∃ custom entries, Lists json custom entries ∧
      custom.foldlM readStyle FieldStyle.builtinTable = .ok request.styles ∧
      List.Forall₂ (Requests (tableMeaning request.styles)) entries request.methods := by
  constructor
  · intro h
    unfold ofJson at h
    split at h
    · rename_i document
      simp only [bind_eq_ok_iff, expectObject_eq_ok_iff, expectArray_eq_ok_iff,
        readMethods_eq_ok_iff] at h
      obtain ⟨custom, hcustom, styles, hstyles, entries, hentries, methods, hmethods, heq⟩ := h
      cases heq
      exact ⟨custom, entries, ⟨document, rfl, hcustom, hentries⟩, hstyles, hmethods⟩
    · cases h
  · rintro ⟨custom, entries, ⟨document, rfl, hcustom, hentries⟩, hstyles, hmethods⟩
    unfold ofJson
    simp only [bind_eq_ok_iff, expectObject_eq_ok_iff, expectArray_eq_ok_iff, readMethods_eq_ok_iff]
    exact ⟨custom, hcustom, _, hstyles, entries, hentries, _, hmethods, rfl⟩

end Request

end BuilderFields
