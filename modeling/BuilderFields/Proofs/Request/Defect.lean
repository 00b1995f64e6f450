import BuilderFields.Proofs.Request.Requirement

/-!
# The first defect of a request document

Reading stops at the first requirement that is not met and reports that one, and nothing else can stop it. A reader that
is put together from readers is decided by the lists of its parts put one after another. So there is one lemma for each
way of putting readers together, which is one after another, over the items of an array and along the definitions of
styles, and one lemma for each kind of node.
-/

namespace BuilderFields

variable {α β : Type}

/-- The computation fails with the first defect of the list, and gives a value if there is none. -/
def Decided (requirements : List Requirement) (x : Except RequestFault α) : Prop :=
  match requirements.findSome? Requirement.fault? with
  | none => ∃ value, x = .ok value
  | some fault => x = .error fault

namespace Decided

variable {requirements later : List Requirement} {requirement : Requirement}
  {x : Except RequestFault α} {f : α → Except RequestFault β}

theorem exists_ok (h : Decided requirements x)
    (hnone : requirements.findSome? Requirement.fault? = none) : ∃ value, x = .ok value := by
  rw [Decided, hnone] at h
  exact h

/-- A decided reader fails for the first requirement that is not met. -/
theorem eq_error {fault : RequestFault} (h : Decided requirements x)
    (hsome : requirements.findSome? Requirement.fault? = some fault) : x = .error fault := by
  rw [Decided, hsome] at h
  exact h

theorem eq_error_iff (h : Decided requirements x) {fault : RequestFault} :
    x = .error fault ↔ requirements.findSome? Requirement.fault? = some fault := by
  refine ⟨fun herror => ?_, h.eq_error⟩
  cases hfirst : requirements.findSome? Requirement.fault? with
  | none =>
      obtain ⟨value, hvalue⟩ := h.exists_ok hfirst
      cases hvalue.symm.trans herror
  | some first => rw [Except.error.inj ((h.eq_error hfirst).symm.trans herror)]

theorem ok (value : α) : Decided [] (.ok value) := ⟨value, rfl⟩

theorem met (h : requirement.fault? = none) (value : α) : Decided [requirement] (.ok value) := by
  unfold Decided
  rw [List.findSome?_singleton, h]
  exact ⟨value, rfl⟩

theorem unmet {fault : RequestFault} (h : requirement.fault? = some fault) :
    Decided [requirement] (.error fault : Except RequestFault α) := by
  unfold Decided
  rw [List.findSome?_singleton, h]

/-- **One computation after another is decided by one list after the other.** -/
theorem bind (h : Decided requirements x) (hlater : ∀ value, x = .ok value → Decided later (f value)) :
    Decided (requirements ++ later) (x >>= f) := by
  unfold Decided
  rw [List.findSome?_append]
  cases hfirst : requirements.findSome? Requirement.fault? with
  | none =>
      obtain ⟨value, rfl⟩ := h.exists_ok hfirst
      exact hlater value rfl
  | some fault =>
      rw [h.eq_error hfirst]
      rfl

theorem map (h : Decided requirements x) (g : α → β) :
    Decided requirements (x >>= fun value => .ok (g value)) := by
  rw [← List.append_nil requirements]
  exact h.bind fun value _ => ok (g value)

variable {ι : Type} {list : ι → List Requirement}

/-- Items are decided one after the other, by what each of them requires. -/
theorem mapM {read : ι → Except RequestFault β} (h : ∀ item, Decided (list item) (read item))
    (items : List ι) : Decided (items.flatMap list) (items.mapM read) := by
  induction items with
  | nil => exact ok []
  | cons first rest ih =>
      rw [List.flatMap_cons, List.mapM_cons]
      exact (h first).bind fun value _ => ih.map (value :: ·)

theorem foldlM {step : β → ι → Except RequestFault β}
    (h : ∀ state item, Decided (list item) (step state item)) (items : List ι) (state : β) :
    Decided (items.flatMap list) (items.foldlM step state) := by
  induction items generalizing state with
  | nil => exact ok state
  | cons first rest ih =>
      rw [List.flatMap_cons, List.foldlM_cons]
      exact (h state first).bind fun later _ => ih later

end Decided

namespace Request

open Checklist

variable {location : Json.Location} {node : Json} {known scope : List String}
  {styles : Entries String FieldStyle}

theorem expectObject_decided (hlocation : location ≠ .root) (node : Json) :
    Decided (one (.shape .object) location node) (expectObject location.text node) := by
  cases node with
  | object members => exact .met rfl members
  | _ => exact .unmet (if_neg hlocation)

theorem expectArray_decided (hlocation : location ≠ .root) (node : Json) :
    Decided (one (.shape .array) location node) (expectArray location.text node) := by
  cases node with
  | array items => exact .met rfl items
  | _ => exact .unmet (if_neg hlocation)

theorem expectText_decided (hlocation : location ≠ .root) (node : Json) :
    Decided (one (.shape .text) location node) (expectText location.text node) := by
  cases node with
  | text value => exact .met rfl value
  | _ => exact .unmet (if_neg hlocation)

/-- A list is decided by its shape and by its items. -/
theorem each_decided {inner : Checklist} {read : String → Json → Except RequestFault α}
    (hlocation : location ≠ .root) (h : ∀ place child, Decided (inner (location.item place) child)
      (read (indexed location.text place) child)) (node : Json) :
    Decided (each inner location node) (do
      let items ← expectArray location.text node
      items.zipIdx.mapM fun item => read (indexed location.text item.2) item.1) := by
  refine (expectArray_decided hlocation node).bind fun items hitems => ?_
  obtain rfl := expectArray_eq_ok_iff.mp hitems
  exact .mapM (fun item : Json × Nat => h item.2 item.1) items.zipIdx

theorem expectTexts_decided (hlocation : location ≠ .root) (node : Json) :
    Decided (each (one (.shape .text)) location node) (expectTexts location.text node) :=
  each_decided hlocation (fun place => expectText_decided (location.item_ne_root place)) node

/-- A member that may be left out is read as if it had a value that satisfies everything. -/
theorem onMember_decided {inner : Checklist} {key : String} {absent : Json}
    (read : Json → Except RequestFault α) (habsent : ∃ value, read absent = .ok value)
    (h : ∀ child, Decided (inner (location.member key) child) (read child)) (node : Json) :
    Decided (onMember key inner location node) (read ((node.member? key).getD absent)) := by
  unfold onMember
  cases node.member? key with
  | none => exact habsent
  | some child => exact h child

/-- A member with a text is decided by its presence and its shape. -/
theorem textMember_decided (hlocation : location ≠ .root) (entry : Entries String Json)
    (key : String) : Decided (Checklist.textMember key location (.object entry))
      (textMember location.text entry key) := by
  unfold Checklist.textMember textMember onMember
  rw [Json.member?_object]
  cases hchild : entry.get? key with
  | none => exact .unmet (by simp [Requirement.fault?, hchild])
  | some child =>
      have hmet : Decided (one (.member key) location (.object entry)) (.ok ()) :=
        .met (by simp [Requirement.fault?, hchild]) ()
      have htext := expectText_decided (location.member_ne_root key) child
      rw [Json.Location.text_member hlocation] at htext
      exact hmet.bind fun _ _ => htext

theorem type_decided (location : Json.Location) (text : String) (scope : List String) :
    Decided (one (.type scope) location (.text text))
      ((TypeExpr.parse text scope).mapError (RequestFault.obstacle ∘ Obstacle.unreadable)) := by
  cases h : TypeExpr.parse text scope with
  | ok type => exact .met (by simp [Requirement.fault?, h]) type
  | error fault => exact .unmet (by simp [Requirement.fault?, h])

/-- A text that names a style, for a table that has just the styles that are known. -/
theorem named_decided (hlocation : location ≠ .root) (child : Json)
    (hknown : ∀ name, name ∈ known ↔ name ∈ styles.keys) :
    Decided (one (.shape .text) location child ++ one (.style known) location child) (do
      let name ← expectText location.text child
      match styles.get? name with
      | none => .error (.obstacle (.malformedStyle name .unknownStyle))
      | some style => .ok (some style)) := by
  refine (expectText_decided hlocation child).bind fun name hname => ?_
  obtain rfl := expectText_eq_ok_iff.mp hname
  cases hstyle : styles.get? name with
  | none =>
      have hunknown := mt (hknown name).mp (Entries.get?_eq_none_iff.mp hstyle)
      exact .unmet (by simp [Requirement.fault?, hunknown])
  | some style =>
      have hname : name ∈ known :=
        (hknown name).mpr (List.mem_map_of_mem (Entries.mem_of_get?_eq_some hstyle))
      exact .met (by simp [Requirement.fault?, hname]) (some style)

/-- A chosen style is decided by whether it is known. -/
theorem choice_decided (hlocation : location ≠ .root) (entry : Entries String Json)
    (hknown : ∀ name, name ∈ known ↔ name ∈ styles.keys) :
    Decided (onMember "style" (choice known) location (.object entry))
      (readChoice styles location.text entry) := by
  have hpath : (location.member "style").text = location.text ++ ".style" :=
    Json.Location.text_member_dotted hlocation "style"
  unfold onMember readChoice
  rw [Json.member?_object, ← hpath]
  cases entry.get? "style" with
  | none => exact .ok none
  | some child =>
      have hnamed := named_decided (location.member_ne_root "style") child hknown
      cases child with
      | null => exact .ok none
      | _ => exact hnamed

/-- A parameter is read for exactly what the checklist requires of it. -/
theorem readParameter_decided (hlocation : location ≠ .root) (node : Json) (scope : List String)
    (hknown : ∀ name, name ∈ known ↔ name ∈ styles.keys) :
    Decided (parameter known scope location node)
      (readParameter styles scope location.text node) := by
  refine (expectObject_decided hlocation node).bind fun entry hentry => ?_
  obtain rfl := expectObject_eq_ok_iff.mp hentry
  refine (textMember_decided hlocation entry "name").bind fun name _ => ?_
  refine (textMember_decided hlocation entry "type").bind fun text htext => ?_
  -- The type is parsed only after it was found to be a text, and that text is the member.
  have htype : onMember "type" (one (.type scope)) location (.object entry) =
      one (.type scope) (location.member "type") (.text text) := by
    rw [onMember, Json.member?_object, textMember_eq_ok_iff.mp htext]
  rw [htype]
  refine (type_decided _ text scope).bind fun type _ => ?_
  exact (choice_decided hlocation entry hknown).map _

/-- The type variables that a method entry is read with are those that its types are required to be read with. -/
theorem scope_eq_of_expectTexts {path : String}
    (h : expectTexts path ((node.member? "type_variables").getD (.array [])) = .ok scope) :
    Checklist.scope node = scope := by
  have htexts := expectTexts_eq_ok_iff.mp h
  unfold Checklist.scope
  rw [← Json.textItems_texts scope, ← htexts]
  cases node.member? "type_variables" <;> rfl

/-- The parameter entries of a method entry, none if it leaves them out. -/
theorem readParameters_decided (location : Json.Location) (node : Json) (scope : List String)
    (hknown : ∀ name, name ∈ known ↔ name ∈ styles.keys) :
    Decided (onMember "parameters" (each (parameter known scope)) location node) (do
      let path := (location.member "parameters").text
      let items ← expectArray path ((node.member? "parameters").getD (.array []))
      items.zipIdx.mapM fun item => readParameter styles scope (indexed path item.2) item.1) :=
  onMember_decided _ ⟨[], rfl⟩ (each_decided (location.member_ne_root _) fun place child =>
    readParameter_decided (Json.Location.item_ne_root _ place) child scope hknown) node

/-- A method is read for exactly what the checklist requires of it. -/
theorem readMethod_decided (hlocation : location ≠ .root) (node : Json)
    (hknown : ∀ name, name ∈ known ↔ name ∈ styles.keys) :
    Decided (method known location node) (readMethod styles location.text node) := by
  have hvariablesPath : (location.member "type_variables").text =
    location.text ++ ".type_variables" := Json.Location.text_member_dotted hlocation _
  have hparametersPath : (location.member "parameters").text = location.text ++ ".parameters" :=
    Json.Location.text_member_dotted hlocation _
  unfold readMethod
  rw [← hvariablesPath, ← hparametersPath]
  refine (expectObject_decided hlocation node).bind fun entry hentry => ?_
  obtain rfl := expectObject_eq_ok_iff.mp hentry
  refine (textMember_decided hlocation entry "name").bind fun name _ => ?_
  refine (onMember_decided (expectTexts _) ⟨[], rfl⟩
    (expectTexts_decided (location.member_ne_root _)) (.object entry)).bind fun scope hscope => ?_
  rw [scope_eq_of_expectTexts hscope]
  have hinfos := readParameters_decided location (.object entry) scope hknown
  have hmethod := hinfos.map fun infos =>
    (⟨name, infos.map FieldInfo.parameter, chosenStyles infos⟩ : MethodRequest)
  rw [bind_assoc] at hmethod
  exact hmethod

/-! ### The document -/

/-- A style is read for exactly what the checklist requires of it. -/
theorem readStyle_decided (styles : Entries String FieldStyle) (definition : String × Json) :
    Decided (style definition.1 ((Json.Location.root.member "styles").member definition.1)
      definition.2) (readStyle styles definition) := by
  have hpath : ((Json.Location.root.member "styles").member definition.1).text =
    "styles." ++ definition.1 := rfl
  unfold readStyle
  rw [← hpath]
  refine (expectTexts_decided (Json.Location.member_ne_root _ _) definition.2).bind
    fun operations hoperations => ?_
  have htexts : definition.2.textItems = operations := by
    rw [expectTexts_eq_ok_iff.mp hoperations, Json.textItems_texts]
  refine .map ?_ _
  cases h : FieldStyle.parse definition.1 operations [] with
  | ok style => exact .met (by simp [Requirement.fault?, htexts, h]) style
  | error cause => exact .unmet (by simp [Requirement.fault?, htexts, h])

/-- A style that is read is a style that can be named. -/
theorem mem_keys_of_readStyles {custom : Entries String Json} {later : Entries String FieldStyle}
    (h : custom.foldlM readStyle styles = .ok later) (name : String) :
    name ∈ styles.keys ++ custom.keys ↔ name ∈ later.keys := by
  induction custom generalizing styles with
  | nil =>
      cases h
      simp [Entries.keys]
  | cons definition rest ih =>
      rw [List.foldlM_cons] at h
      obtain ⟨table, hread, hrest⟩ := exists_of_bind_eq_ok h
      obtain ⟨operations, style, -, -, rfl⟩ := readStyle_eq_ok_iff.mp hread
      rw [← ih hrest, List.mem_append, List.mem_append, Entries.mem_keys_put]
      simp only [Entries.keys, List.map_cons, List.mem_cons]
      tauto

/-- The known styles are the built-in ones and those of the document. -/
theorem knownStyles_eq {custom : Entries String Json}
    (h : (node.member? "styles").getD (.object []) = .object custom) :
    knownStyles node = FieldStyle.builtinTable.keys ++ custom.keys := by
  unfold knownStyles
  cases hmember : node.member? "styles" with
  | none =>
      rw [hmember] at h
      cases h
      rfl
  | some child =>
      rw [hmember] at h
      cases h
      rfl

theorem readStyles_decided (node : Json) :
    Decided (onMember "styles" Checklist.styles .root node) (do
      let custom ← expectObject "styles" ((node.member? "styles").getD (.object []))
      custom.foldlM readStyle FieldStyle.builtinTable) := by
  refine onMember_decided (fun child => do
    let custom ← expectObject "styles" child
    custom.foldlM readStyle FieldStyle.builtinTable) ⟨_, rfl⟩ (fun child => ?_) node
  refine (expectObject_decided (Json.Location.root.member_ne_root "styles") child).bind
    fun custom hcustom => ?_
  obtain rfl := expectObject_eq_ok_iff.mp hcustom
  exact .foldlM readStyle_decided custom FieldStyle.builtinTable

theorem readMethods_decided (node : Json) (hknown : ∀ name, name ∈ known ↔ name ∈ styles.keys) :
    Decided (onMember "methods" (each (method known)) .root node) (do
      let entries ← expectArray "methods" ((node.member? "methods").getD (.array []))
      entries.zipIdx.mapM fun item => readMethod styles (indexed "methods" item.2) item.1) :=
  onMember_decided _ ⟨[], rfl⟩ (each_decided (Json.Location.member_ne_root _ _) fun place child =>
    readMethod_decided (Json.Location.item_ne_root _ place) child hknown) node

/-- **A document is decided by its requirements in document order.** -/
theorem ofJson_decided (json : Json) : Decided (document .root json) (ofJson json) := by
  cases json with
  | object members =>
      have hobject : Decided (one (.shape .object) .root (.object members)) (.ok ()) := ⟨(), rfl⟩
      have hdocument := hobject.bind fun _ _ =>
        (readStyles_decided (.object members)).bind fun styles hstyles => by
          obtain ⟨custom, hcustom, hread⟩ := exists_of_bind_eq_ok hstyles
          have hknown := mem_keys_of_readStyles hread
          rw [← knownStyles_eq (expectObject_eq_ok_iff.mp hcustom)] at hknown
          exact (readMethods_decided (.object members) hknown).map fun methods =>
            (⟨styles, methods⟩ : Request)
      simp only [bind_assoc] at hdocument
      exact hdocument
  | _ => exact rfl

end Request

end BuilderFields
