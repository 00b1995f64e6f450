import BuilderFields.Json
import BuilderFields.Number.Form
import BuilderFields.Text.Quoted

/-!
# Showing JSON values

A value is shown in messages with its texts in quotes and its numbers in their plain form. As running text
a text stands without quotes and every other value as it is shown.
-/

namespace BuilderFields.Json

mutual

def display : Json → String
  | .null => "None"
  | .truth value => Text.showTruth value
  | .whole value => toString value
  | .decimal spelling => String.ofList (NumberForm.plain.write (.ofSpelling spelling)).signed
  | .text value => Text.quote value
  | .array items => "[" ++ Text.commaJoin (displayItems items) ++ "]"
  | .object members => "\x7b" ++ Text.commaJoin (displayMembers members) ++ "\x7d"

def displayItems : List Json → List String
  | [] => []
  | item :: rest => display item :: displayItems rest

def displayMembers : List (String × Json) → List String
  | [] => []
  | (key, value) :: rest => (Text.quote key ++ ": " ++ display value) :: displayMembers rest

end

def running : Json → String
  | .text value => value
  | value => value.display

theorem displayItems_eq_map (items : List Json) : displayItems items = items.map display := by
  induction items with
  | nil => rfl
  | cons item rest ih => rw [displayItems, ih, List.map_cons]

end BuilderFields.Json
