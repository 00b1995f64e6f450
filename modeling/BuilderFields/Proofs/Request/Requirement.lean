import BuilderFields.Proofs.Json.Location
import BuilderFields.Proofs.Request

/-!
# What a request document has to satisfy

The requirements on a document are listed in document order, each with the node that it is about and the location of
that node. The list is written down for every value, well shaped or not: where a value has no items or members there is
nothing to require of them. So it says what is asked and in which order, and not where the asking stops.
-/

namespace BuilderFields

inductive Demand
  | shape (expected : Shape)
  | member (key : String)
  /-- The texts of the node are the operations of a style. -/
  | operations (style : String)
  | type (scope : List String)
  /-- The node names one of these styles. -/
  | style (known : List String)

structure Requirement where
  location : Json.Location
  node : Json
  demand : Demand

/-- The defect that is reported if the requirement is not met. The whole document has no path to be named by, so its
shape is reported in its own way. What a text has to be is required of texts only; that the node is one is a
requirement of its own. -/
def Requirement.fault? (requirement : Requirement) : Option RequestFault :=
  let ⟨location, node, demand⟩ := requirement
  match demand with
  | .shape expected =>
    if node.hasShape expected then none
    else if location = .root then some .notAnObject
    else some (.wrongShape location.text expected node.kindName)
  | .member key => if (node.member? key).isSome then none else some (.missing location.text key)
  | .operations style =>
    match FieldStyle.parse style node.textItems [] with
    | .ok _ => none
    | .error cause => some (.obstacle cause)
  | .type scope =>
    match node with
    | .text value =>
      match TypeExpr.parse value scope with
      | .ok _ => none
      | .error fault => some (.obstacle (.unreadable fault))
    | _ => none
  | .style known =>
    match node with
    | .text name =>
      if name ∈ known then none else some (.obstacle (.malformedStyle name .unknownStyle))
    | _ => none

/-- The requirements on the node at a location, in document order. -/
abbrev Checklist := Json.Location → Json → List Requirement

namespace Checklist

def one (demand : Demand) : Checklist := fun location node => [⟨location, node, demand⟩]

def onMember (key : String) (inner : Checklist) : Checklist := fun location node =>
  match node.member? key with
  | none => []
  | some child => inner (location.member key) child

def each (inner : Checklist) : Checklist := fun location node =>
  one (.shape .array) location node ++
    node.itemList.zipIdx.flatMap fun item => inner (location.item item.2) item.1

def textMember (key : String) : Checklist := fun location node =>
  one (.member key) location node ++ onMember key (one (.shape .text)) location node

def choice (known : List String) : Checklist := fun location node =>
  match node with
  | .null => []
  | node => one (.shape .text) location node ++ one (.style known) location node

def parameter (known scope : List String) : Checklist := fun location node =>
  one (.shape .object) location node ++
    (textMember "name" location node ++ (textMember "type" location node ++
      (onMember "type" (one (.type scope)) location node ++
        onMember "style" (choice known) location node)))

def scope (node : Json) : List String :=
  ((node.member? "type_variables").map Json.textItems).getD []

def method (known : List String) : Checklist := fun location node =>
  one (.shape .object) location node ++
    (textMember "name" location node ++
      (onMember "type_variables" (each (one (.shape .text))) location node ++
        onMember "parameters" (each (parameter known (scope node))) location node))

def style (name : String) : Checklist := fun location node =>
  each (one (.shape .text)) location node ++ one (.operations name) location node

def styles : Checklist := fun location node =>
  one (.shape .object) location node ++ node.memberList.flatMap fun definition =>
    style definition.1 (location.member definition.1) definition.2

def knownStyles (node : Json) : List String :=
  FieldStyle.builtinTable.keys ++ (((node.member? "styles").map Json.memberList).getD []).keys

def document : Checklist := fun location node =>
  one (.shape .object) location node ++
    (onMember "styles" styles location node ++
      onMember "methods" (each (method (knownStyles node))) location node)

/-- The nodes below the whole document that are asked about stand where the requirements say. -/
def Located (checklist : Checklist) : Prop :=
  ∀ root location node, location ≠ .root → Json.At root location node →
    ∀ requirement ∈ checklist location node,
      root.At requirement.location requirement.node ∧ requirement.location ≠ .root

variable {inner first second : Checklist}

theorem located_one (demand : Demand) : Located (one demand) := by
  intro root location node hlocation hat requirement h
  obtain rfl := List.mem_singleton.mp h
  exact ⟨hat, hlocation⟩

theorem Located.append (hfirst : Located first) (hsecond : Located second) :
    Located fun location node => first location node ++ second location node := by
  intro root location node hlocation hat requirement h
  rcases List.mem_append.mp h with h | h
  · exact hfirst root location node hlocation hat requirement h
  · exact hsecond root location node hlocation hat requirement h

/-- A member is below the whole document even if it is a member of the whole document. -/
theorem Located.of_mem_onMember (hinner : Located inner) {root node : Json}
    {location : Json.Location} (hat : root.At location node) {key : String}
    {requirement : Requirement} (h : requirement ∈ onMember key inner location node) :
    root.At requirement.location requirement.node ∧ requirement.location ≠ .root := by
  unfold Checklist.onMember at h
  split at h
  · exact absurd h List.not_mem_nil
  · rename_i child hchild
    exact hinner root _ child (location.member_ne_root key) (hat.of_member? hchild) requirement h

theorem Located.onMember (hinner : Located inner) (key : String) :
    Located (onMember key inner) := by
  intro root location node _ hat requirement h
  exact hinner.of_mem_onMember hat h

/-- Defects in the items lie below the node. -/
theorem Located.each (hinner : Located inner) : Located (each inner) := by
  refine (located_one _).append fun root location node _ hat requirement h => ?_
  obtain ⟨item, hitem, h⟩ := List.mem_flatMap.mp h
  exact hinner root _ item.1 (location.item_ne_root _) (hat.of_mem_zipIdx hitem) requirement h

theorem located_textMember (key : String) : Located (textMember key) :=
  (located_one _).append ((located_one _).onMember key)

theorem located_choice (known : List String) : Located (choice known) := by
  intro root location node hlocation hat requirement h
  unfold choice at h
  split at h
  · exact absurd h List.not_mem_nil
  · exact (located_one _).append (located_one _) root location _ hlocation hat requirement h

theorem located_parameter (known scope : List String) : Located (parameter known scope) :=
  (located_one _).append <| (located_textMember _).append <| (located_textMember _).append <|
    ((located_one _).onMember _).append ((located_choice known).onMember _)

/-- Defects of a method lie at or below its entry. -/
theorem located_method (known : List String) : Located (method known) := by
  refine (located_one _).append <| (located_textMember _).append <|
    ((located_one _).each.onMember _).append fun root location node => ?_
  exact (located_parameter known (scope node)).each.onMember _ root location node

theorem located_styles : Located styles := by
  refine (located_one _).append fun root location node _ hat requirement h => ?_
  obtain ⟨definition, hdefinition, h⟩ := List.mem_flatMap.mp h
  exact (located_one _).each.append (located_one _) root _ definition.2
    (location.member_ne_root _) (hat.of_mem_members hdefinition) requirement h

/-- Of the whole document it is required that it is an object. All other requirements are about nodes below. -/
theorem mem_document {json : Json} {requirement : Requirement}
    (h : requirement ∈ document .root json) : requirement = ⟨.root, json, .shape .object⟩ ∨
      json.At requirement.location requirement.node ∧ requirement.location ≠ .root := by
  rcases List.mem_append.mp h with h | h
  · exact .inl (List.mem_singleton.mp h)
  · refine .inr ?_
    rcases List.mem_append.mp h with h | h
    · exact located_styles.of_mem_onMember .root h
    · exact (located_method _).each.of_mem_onMember .root h

end Checklist

end BuilderFields
