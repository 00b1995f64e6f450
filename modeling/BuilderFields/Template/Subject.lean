import BuilderFields.Json.Display
import BuilderFields.Template.Fault

/-!
# What a field stands for

A field stands for an argument or for something reached from it: an item by number or by key, or an
attribute. Numbers have their parts as attributes, and every value has its kind, which is named.
-/

namespace BuilderFields

inductive Subject
  | value (json : Json)
  | kind (name : String)
deriving Repr

def Json.whole? : Json → Option Int
  | .whole value => some value
  | .truth value => some (if value then 1 else 0)
  | _ => none

namespace Subject

def whole (n : Int) : Subject :=
  value (.whole n)

def text (s : String) : Subject :=
  value (.text s)

def kindName : Subject → String
  | value json => json.kindName
  | kind _ => "type"

def display : Subject → String
  | value json => json.display
  | kind name => "<class '" ++ name ++ "'>"

def running : Subject → String
  | value json => json.running
  | kind name => (kind name).display

def part? (json : Json) (name : String) : Option Subject :=
  match json, json.whole? with
  | .decimal spelling, _ =>
    if name = "real" then some (value (.decimal spelling))
    else if name = "imag" then some (value (.decimal "0.0"))
    else none
  | _, some n =>
    if name = "real" ∨ name = "numerator" then some (whole n)
    else if name = "imag" then some (whole 0)
    else if name = "denominator" then some (whole 1)
    else none
  | _, none => none

def attribute? (subject : Subject) (name : String) : Option Subject :=
  if name = "__class__" then
    some (kind subject.kindName)
  else
    match subject with
    | value json => part? json name
    | kind ofName => if name = "__name__" ∨ name = "__qualname__" then some (text ofName) else none

def owner : Subject → String
  | value json => "'" ++ json.kindName ++ "' object"
  | kind name => "type object '" ++ name ++ "'"

def getAttribute (subject : Subject) (name : String) : Except TemplateFault Subject :=
  match subject.attribute? name with
  | some found => .ok found
  | none => .error (.noSuchAttribute subject.owner name)

/-- The item of a name; a name made of digits is a number. -/
def getItem (subject : Subject) (name : String) (number : Option Nat) :
    Except TemplateFault Subject :=
  match subject, number with
  | value (.text s), some index =>
    match s.toList[index]? with
    | some c => .ok (text (String.singleton c))
    | none => .error .noSuchCharacter
  | value (.text _), none => .error (.unsuitable .textItemNotNumbered)
  | value (.array items), some index =>
    match items[index]? with
    | some json => .ok (value json)
    | none => .error .noSuchItem
  | value (.array _), none => .error (.unsuitable .listItemNotNumbered)
  | value (.object _), some index => .error (.noSuchKey (toString index))
  | value (.object members), none =>
    match Entries.get? members name with
    | some json => .ok (value json)
    | none => .error (.noSuchKey (Text.quote name))
  | value json, _ => .error (.unsuitable (.withoutItems json.kindName))
  | kind name, _ => .error (.unsuitable (.kindWithoutItems name))

end Subject

end BuilderFields
