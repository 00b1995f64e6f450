import BuilderFields.Log.Level
import BuilderFields.Text.Blank
import BuilderFields.Text.LetterCase
import BuilderFields.Text.Quoted

/-!
# Log filters

A filter is written as parts between commas. A bare level sets the level for all modules, and a part
with an equals sign sets the rule of one module, where the word false silences it. Names are compared in
lower case. A record is judged by the rule of its module or else of the nearest dotted ancestor that has
one; the empty name is the ancestor of all and always has a rule.
-/

namespace BuilderFields

inductive LogRule
  | silent
  | atLeast (level : LogLevel)
deriving Repr, DecidableEq

namespace LogRule

def allows (rule : LogRule) (number : Int) : Bool :=
  match rule with
  | silent => false
  | atLeast level => level.number ≤ number

def display : LogRule → String
  | silent => Text.showTruth false
  | atLeast level => Text.quote level.name

end LogRule

structure LogFilter where
  /-- The bare level as it was written, in lower case. -/
  levelText : String
  rules : Entries String LogRule
deriving Repr, DecidableEq

structure UnknownLevel where
  name : String
deriving Repr, DecidableEq

def UnknownLevel.message (error : UnknownLevel) : String :=
  "unknown log level " ++ Text.quote error.name

namespace LogFilter

def readLevel (name : String) : Except UnknownLevel LogLevel :=
  match LogLevel.ofName? (Text.upper name) with
  | some level => .ok level
  | none => .error ⟨name⟩

structure Draft where
  levelText : String
  level : LogLevel
  rules : Entries String LogRule

def Draft.initial : Draft where
  levelText := "info"
  level := .info
  rules := []

def Draft.add (draft : Draft) (part : String) : Except UnknownLevel Draft :=
  if part.isEmpty then
    .ok draft
  else
    let module := part.toList.takeWhile (· ≠ '=')
    match part.toList.dropWhile (· ≠ '=') with
    | [] => do
      let level ← readLevel part
      .ok { draft with levelText := part, level := level }
    | _ :: rule => do
      let name := String.ofList (Text.trimBlanks rule)
      let rule ← if name = "false" then .ok .silent else LogRule.atLeast <$> readLevel name
      .ok { draft with rules := draft.rules.put (String.ofList (Text.trimBlanks module)) rule }

/-- The bare level becomes the rule of the empty name, unless that was given one. -/
def Draft.toFilter (draft : Draft) : LogFilter where
  levelText := draft.levelText
  rules :=
    if draft.rules.contains "" then draft.rules
    else draft.rules.put "" (.atLeast draft.level)

def parts (text : String) : List String :=
  (Text.splitOnChar ',' (Text.lower text).toList).map fun part =>
    String.ofList (Text.trimBlanks part)

def parse (text : String) : Except UnknownLevel LogFilter := do
  let draft ← (parts text).foldlM Draft.add .initial
  .ok draft.toFilter

/-- A module and its dotted ancestors, the nearest first and the empty name last. -/
def lineage (module : String) : List String :=
  let pieces := Text.splitOnChar '.' module.toList
  let dotted (count : Nat) := String.ofList (['.'].intercalate (pieces.take count))
  (List.range (pieces.length + 1)).reverse.map dotted

def ruleFor? (filter : LogFilter) (module : String) : Option LogRule :=
  (lineage module).findSome? filter.rules.get?

def keeps (filter : LogFilter) (module : String) (number : Int) : Bool :=
  match filter.ruleFor? module with
  | some rule => rule.allows number
  | none => true

def displayRules (filter : LogFilter) : String :=
  let entries := filter.rules.map fun entry => Text.quote entry.1 ++ ": " ++ entry.2.display
  "\x7b" ++ Text.commaJoin entries ++ "\x7d"

end LogFilter

end BuilderFields
