import BuilderFields.Style

/-!
# The built-in styles

Four styles are known without being defined: adding to a list that grows, adding to a list that is frozen
at the end, setting an optional value, and appending to a string.
-/

namespace BuilderFields.FieldStyle

def applied (name parameter : String) : TypeExpr :=
  .declared name [.typeVar parameter]

def arrayListAdding : FieldStyle :=
  let list := applied "java.util.ArrayList" "T"
  { name := "ArrayListAdding"
    start := ⟨"start", ["T"], [], list⟩
    finish := ⟨"finish", ["T"], [⟨"list", list⟩], list⟩
    modifiers := [
      ⟨"addTo", ["T"], [⟨"to", list⟩, ⟨"item", .typeVar "T"⟩], list⟩,
      ⟨"addAllTo", ["T", "E"],
        [⟨"to", list⟩, ⟨"items", applied "java.lang.Iterable" "T"⟩], list⟩] }

def immutableListAdding : FieldStyle :=
  let builder := applied "com.google.common.collect.ImmutableList.Builder" "E"
  { name := "ImmutableListAdding"
    start := ⟨"start", ["E"], [], builder⟩
    finish := ⟨"finish", ["E"], [⟨"from", builder⟩],
      applied "com.google.common.collect.ImmutableList" "E"⟩
    modifiers := [
      ⟨"addTo", ["E"], [⟨"start", builder⟩, ⟨"item", .typeVar "E"⟩], builder⟩,
      ⟨"addAllTo", ["E"],
        [⟨"start", builder⟩, ⟨"items", applied "java.lang.Iterable" "E"⟩], builder⟩] }

def optionalSetting : FieldStyle :=
  let optional := applied "com.google.common.base.Optional" "E"
  { name := "OptionalSetting"
    start := ⟨"start", ["E"], [], optional⟩
    finish := ⟨"finish", ["E"], [⟨"from", optional⟩], optional⟩
    modifiers := [
      ⟨"set", ["E"], [⟨"start", optional⟩, ⟨"value", .typeVar "E"⟩], optional⟩] }

def stringAppending : FieldStyle :=
  let builder := TypeExpr.declared "java.lang.StringBuilder" []
  let string := TypeExpr.declared "java.lang.String" []
  { name := "StringAppending"
    start := ⟨"start", [], [], builder⟩
    finish := ⟨"finish", [], [⟨"from", builder⟩], string⟩
    modifiers := [
      ⟨"appendTo", [], [⟨"start", builder⟩, ⟨"value", string⟩], builder⟩] }

def builtins : List FieldStyle :=
  [arrayListAdding, immutableListAdding, optionalSetting, stringAppending]

def builtinTable : Entries String FieldStyle :=
  builtins.map fun style => (style.name, style)

end BuilderFields.FieldStyle
