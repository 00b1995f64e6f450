import BuilderFields.Plan.Document
import BuilderFields.Proofs.Entries
import BuilderFields.Request

/-!
# Where a node stands in a document

A location is the way from the whole document down to a node, through members by key and through items by place. Its
text is what a message of a defect says about it. The whole document has no name, so the text of its location is empty
and its members go without a dot.
-/

namespace BuilderFields

namespace Json

inductive Location
  /-- The whole document. -/
  | root
  | member (outer : Location) (key : String)
  | item (outer : Location) (place : Nat)
deriving Repr, DecidableEq

namespace Location

def text : Location → String
  | root => ""
  | member root key => key
  | member outer key => outer.text ++ "." ++ key
  | item outer place => Request.indexed outer.text place

theorem member_ne_root (outer : Location) (key : String) : outer.member key ≠ root := nofun

theorem item_ne_root (outer : Location) (place : Nat) : outer.item place ≠ root := nofun

theorem text_member {location : Location} (h : location ≠ root) (key : String) :
    (location.member key).text = location.text ++ "." ++ key := by
  cases location with
  | root => exact absurd rfl h
  | member outer name => rfl
  | item outer place => rfl

theorem text_member_dotted {location : Location} (h : location ≠ root) (key : String) :
    (location.member key).text = location.text ++ ("." ++ key) := by
  rw [text_member h, String.append_assoc]

end Location

inductive At (document : Json) : Location → Json → Prop
  | root : At document .root document
  | member {outer members key node} (houter : At document outer (.object members))
      (h : (key, node) ∈ members) : At document (outer.member key) node
  | item {outer items place node} (houter : At document outer (.array items))
      (h : items[place]? = some node) : At document (outer.item place) node

def itemList : Json → List Json
  | array items => items
  | _ => []

def memberList : Json → Entries String Json
  | object members => members
  | _ => []

def member? (node : Json) (key : String) : Option Json :=
  node.memberList.get? key

@[simp]
theorem member?_object (members : Entries String Json) (key : String) :
    (object members).member? key = members.get? key := rfl

def textItems (node : Json) : List String :=
  node.itemList.filterMap fun
    | text value => some value
    | _ => none

theorem textItems_texts (values : List String) : (texts values).textItems = values := by
  unfold textItems texts itemList
  rw [List.filterMap_map]
  exact List.filterMap_some

variable {document node child : Json} {location : Location}

theorem At.of_mem_members {definition : String × Json} (hat : document.At location node)
    (h : definition ∈ node.memberList) : document.At (location.member definition.1) definition.2 := by
  cases node with
  | object members => exact hat.member h
  | _ => exact absurd h List.not_mem_nil

theorem At.of_member? {key : String} (hat : document.At location node)
    (h : node.member? key = some child) : document.At (location.member key) child :=
  hat.of_mem_members (Entries.mem_of_get?_eq_some h)

theorem At.of_mem_zipIdx {item : Json × Nat} (hat : document.At location node)
    (h : item ∈ node.itemList.zipIdx) : document.At (location.item item.2) item.1 := by
  cases node with
  | array items => exact hat.item (List.mem_zipIdx_iff_getElem?.mp h)
  | _ => exact absurd h List.not_mem_nil

def hasShape : Json → Shape → Bool
  | object _, .object => true
  | array _, .array => true
  | text _, .text => true
  | _, _ => false

end Json

end BuilderFields
