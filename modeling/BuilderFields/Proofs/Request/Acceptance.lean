import BuilderFields.Proofs.Request.Defect

/-!
# Which documents are accepted, and what is said about the others

A document is accepted exactly if it is an object of the documented shape, whose styles and types can be read and whose
parameters choose styles that are known. Every other document is rejected for its first defect in document order. A
defect of shape is reported with the path of its node, and with the kind of value that stands there or the member that
is missing there, unless the document as a whole is no object: that has a message of its own, which says what kind of
document is expected and not what was found.
-/

namespace BuilderFields

def RequestFault.ofShape : RequestFault → Bool
  | .notAnObject | .wrongShape .. | .missing .. => true
  | .unreadable _ | .obstacle _ => false

/-- This requirement is the first one that is not met, and this is the fault that is reported for it. -/
def FirstDefect (requirements : List Requirement) (requirement : Requirement)
    (fault : RequestFault) : Prop :=
  ∃ before after, requirements = before ++ requirement :: after ∧
    (∀ met ∈ before, met.fault? = none) ∧ requirement.fault? = some fault

/-- A decided reader fails for the first defect and for no other. -/
theorem Decided.eq_error_iff_exists_firstDefect {α : Type} {requirements : List Requirement}
    {x : Except RequestFault α} (h : Decided requirements x) (fault : RequestFault) :
    x = .error fault ↔ ∃ requirement, FirstDefect requirements requirement fault := by
  rw [h.eq_error_iff, List.findSome?_eq_some_iff]
  constructor
  · rintro ⟨before, requirement, after, hlist, hfault, hmet⟩
    exact ⟨requirement, before, after, hlist, hmet, hfault⟩
  · rintro ⟨requirement, before, after, hlist, hmet, hfault⟩
    exact ⟨before, requirement, after, hlist, hfault, hmet⟩

namespace Request

/-- The shape that a request document has to have, with everything in it readable and known. -/
def Documented (json : Json) : Prop :=
  ∃ custom entries, Lists json custom entries ∧
    (∀ definition ∈ custom, ∃ operations style, definition.2 = Json.texts operations ∧
      FieldStyle.parse definition.1 operations [] = .ok style) ∧
    ∀ entry ∈ entries, ∃ name infos, MethodEntry (documentMeaning custom) entry name infos

/-- The message names the node by its path, and says which kind of value stands there in place of the one expected, or
which member the node lacks. -/
def NamesNode (location : Json.Location) (node : Json) (fault : RequestFault) : Prop :=
  (∃ expected, node.hasShape expected = false ∧
    fault.message = location.text ++ ": expected " ++ expected.phrase ++ ", got " ++ node.kindName) ∨
  ∃ key, node.member? key = none ∧ fault.message = location.text ++ ": missing '" ++ key ++ "'"

variable {json : Json} {styles : Entries String FieldStyle}

theorem exists_readStyles_iff {custom : Entries String Json} :
    (∃ later, custom.foldlM readStyle styles = .ok later) ↔
      ∀ definition ∈ custom, ∃ operations style, definition.2 = Json.texts operations ∧
        FieldStyle.parse definition.1 operations [] = .ok style := by
  induction custom generalizing styles with
  | nil => exact ⟨fun _ => nofun, fun _ => ⟨styles, rfl⟩⟩
  | cons definition rest ih =>
      rw [List.forall_mem_cons]
      simp only [List.foldlM_cons, bind_eq_ok_iff, readStyle_eq_ok_iff]
      constructor
      · rintro ⟨later, table, ⟨operations, style, hoperations, hstyle, rfl⟩, hrest⟩
        exact ⟨⟨operations, style, hoperations, hstyle⟩, ih.mp ⟨later, hrest⟩⟩
      · rintro ⟨⟨operations, style, hoperations, hstyle⟩, hrest⟩
        obtain ⟨later, hlater⟩ := ih.mpr hrest
        exact ⟨later, _, ⟨operations, style, hoperations, hstyle, rfl⟩, hlater⟩

theorem exists_forall₂_iff {α β : Type} {R : α → β → Prop} {items : List α} :
    (∃ values, List.Forall₂ R items values) ↔ ∀ item ∈ items, ∃ value, R item value := by
  induction items with
  | nil => exact ⟨fun _ => nofun, fun _ => ⟨[], .nil⟩⟩
  | cons first rest ih =>
      rw [List.forall_mem_cons, ← ih]
      constructor
      · rintro ⟨_, hfirst | ⟨hfirst, hrest⟩⟩
        exact ⟨⟨_, hfirst⟩, ⟨_, hrest⟩⟩
      · rintro ⟨⟨value, hfirst⟩, ⟨values, hrest⟩⟩
        exact ⟨value :: values, .cons hfirst hrest⟩

/-- A method is requested exactly by an entry that documents one. -/
theorem exists_requests_iff {meaning : StyleMeaning} :
    (∃ method, Requests meaning json method) ↔ ∃ name infos, MethodEntry meaning json name infos := by
  constructor
  · rintro ⟨method, infos, hentry, -, -⟩
    exact ⟨method.name, infos, hentry⟩
  · rintro ⟨name, infos, hentry⟩
    exact ⟨⟨name, infos.map FieldInfo.parameter, chosenStyles infos⟩, infos, hentry, rfl, rfl⟩

/-- Exactly the documented requests are accepted. -/
theorem exists_ofJson_iff_documented (json : Json) :
    (∃ request, ofJson json = .ok request) ↔ Documented json := by
  constructor
  · rintro ⟨request, hrequest⟩
    obtain ⟨custom, entries, hlists, hstyles, hmethods⟩ := ofJson_eq_ok_iff.mp hrequest
    rw [tableMeaning_eq_documentMeaning hstyles] at hmethods
    refine ⟨custom, entries, hlists, exists_readStyles_iff.mp ⟨_, hstyles⟩, fun entry hentry => ?_⟩
    exact exists_requests_iff.mp (exists_forall₂_iff.mp ⟨_, hmethods⟩ entry hentry)
  · rintro ⟨custom, entries, hlists, hstyles, hentries⟩
    obtain ⟨styles, hread⟩ := exists_readStyles_iff.mpr hstyles
    obtain ⟨methods, hmethods⟩ := exists_forall₂_iff.mpr fun entry hentry =>
      exists_requests_iff.mpr (hentries entry hentry)
    rw [← tableMeaning_eq_documentMeaning hread] at hmethods
    exact ⟨⟨styles, methods⟩, ofJson_eq_ok_iff.mpr ⟨custom, entries, hlists, hread, hmethods⟩⟩

/-- A shape that a node below the whole document does not have is reported with the node. -/
theorem namesNode_of_fault? {requirement : Requirement} {fault : RequestFault}
    (hbelow : requirement.location ≠ .root) (hfault : requirement.fault? = some fault)
    (hshape : fault.ofShape = true) : NamesNode requirement.location requirement.node fault := by
  obtain ⟨location, node, demand⟩ := requirement
  cases demand with
  | shape expected =>
      simp only [Requirement.fault?, if_neg hbelow] at hfault
      split at hfault
      · cases hfault
      · rename_i hwrong
        cases hfault
        exact .inl ⟨expected, by simpa using hwrong, rfl⟩
  | member key =>
      simp only [Requirement.fault?] at hfault
      split at hfault
      · cases hfault
      · rename_i hmissing
        cases hfault
        exact .inr ⟨key, by simpa using hmissing, rfl⟩
  -- What a text has to be is no matter of shape.
  | operations style =>
      simp only [Requirement.fault?] at hfault
      split at hfault
      · cases hfault
      · cases hfault
        cases hshape
  | type scope =>
      simp only [Requirement.fault?] at hfault
      split at hfault
      · split at hfault
        · cases hfault
        · cases hfault
          cases hshape
      · cases hfault
  | style known =>
      simp only [Requirement.fault?] at hfault
      split at hfault
      · split at hfault
        · cases hfault
        · cases hfault
          cases hshape
      · cases hfault

/-- A defect of shape names the node that has it. -/
theorem namesNode_of_firstDefect {requirement : Requirement} {fault : RequestFault}
    (h : FirstDefect (Checklist.document .root json) requirement fault)
    (hshape : fault.ofShape = true) (hobject : json.hasShape .object = true) :
    json.At requirement.location requirement.node ∧
      NamesNode requirement.location requirement.node fault := by
  obtain ⟨before, after, hlist, -, hfault⟩ := h
  have hmem : requirement ∈ Checklist.document .root json := by
    rw [hlist]
    exact List.mem_append_right _ List.mem_cons_self
  rcases Checklist.mem_document hmem with rfl | ⟨hat, hbelow⟩
  · simp [Requirement.fault?, hobject] at hfault
  · exact ⟨hat, namesNode_of_fault? hbelow hfault hshape⟩

theorem ofJson_of_not_object (h : json.hasShape .object = false) :
    ofJson json = .error .notAnObject := by
  cases json with
  | object members => cases h
  | _ => rfl

/-- **A request document is accepted exactly if it has the documented shape, and otherwise rejected for its first
defect.** An accepted document gives one method for each of its method entries and one parameter for each parameter
entry, in their order. The fault of a rejected one is that of the first requirement that is not met, in document order,
and a fault of shape names the node that is wrong unless that is the whole document. -/
theorem accepts_documented_rejects_firstDefect (json : Json) :
    ((∃ request, ofJson json = .ok request) ↔ Documented json) ∧
    (∀ request, ofJson json = .ok request → ∃ custom entries, Lists json custom entries ∧
      List.Forall₂ (Requests (documentMeaning custom)) entries request.methods) ∧
    (∀ fault, ofJson json = .error fault ↔
      ∃ requirement, FirstDefect (Checklist.document .root json) requirement fault) ∧
    (∀ requirement fault, FirstDefect (Checklist.document .root json) requirement fault →
      fault.ofShape = true → json.hasShape .object = true →
        json.At requirement.location requirement.node ∧
          NamesNode requirement.location requirement.node fault) ∧
    (json.hasShape .object = false → ofJson json = .error .notAnObject) := by
  refine ⟨exists_ofJson_iff_documented json, fun request h => ?_,
    (ofJson_decided json).eq_error_iff_exists_firstDefect,
    fun requirement fault => namesNode_of_firstDefect, ofJson_of_not_object⟩
  obtain ⟨custom, entries, hlists, hstyles, hmethods⟩ := ofJson_eq_ok_iff.mp h
  rw [tableMeaning_eq_documentMeaning hstyles] at hmethods
  exact ⟨custom, entries, hlists, hmethods⟩

/-- Styles are asked about first, wherever they stand in the document. -/
example : ofJson (.object [("methods", .null), ("styles", .whole 4)]) =
    .error (.wrongShape "styles" .object "int") := rfl

/-- A document that is an array is rejected for its shape, and the message names no node at all. -/
theorem not_namesNode_array : ofJson (.array []) = .error .notAnObject ∧
    RequestFault.notAnObject.ofShape = true ∧
      ∀ location node, ¬ NamesNode location node .notAnObject := by
  refine ⟨rfl, rfl, fun location node hnames => ?_⟩
  have hcolon : ':' ∉ RequestFault.notAnObject.message.toList := by decide
  obtain ⟨expected, -, h⟩ | ⟨key, -, h⟩ := hnames
  · rw [h] at hcolon
    simp [String.toList_append] at hcolon
  · rw [h] at hcolon
    simp [String.toList_append] at hcolon

end Request

end BuilderFields
