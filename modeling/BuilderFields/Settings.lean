import BuilderFields.Json
import BuilderFields.Number.Binary64
import BuilderFields.Settings.EnvFile
import BuilderFields.Text.LetterCase

/-!
# Settings

Three settings are taken from explicit overrides, the environment, an environment file or their defaults,
in this order, and each source is asked only for what the sources before it leave open. A value that is
not of its setting's kind makes the loading fail; all such settings are reported together.
-/

namespace BuilderFields

structure Settings where
  logFilter : String
  strict : Bool
  renderFailures : Bool
deriving Repr, DecidableEq

inductive SettingField
  | logFilter
  | renderFailures
  | strict
deriving Repr, DecidableEq

def SettingField.name : SettingField → String
  | .logFilter => "log_filter"
  | .renderFailures => "render_failures"
  | .strict => "strict"

structure InvalidSettings where
  fields : List SettingField
deriving Repr, DecidableEq

namespace Settings

def defaults : Settings where
  logFilter := "info"
  strict := false
  renderFailures := true

def nameStart : String := "CALLBUILDER_"

def foldAscii (s : String) : String :=
  String.ofList (s.toList.map Char.toLower)

/-- The words for a truth value, in any ASCII case. -/
def truthOfText? (text : String) : Option Bool :=
  let word := foldAscii text
  if word ∈ ["1", "true", "t", "yes", "y", "on"] then some true
  else if word ∈ ["0", "false", "f", "no", "n", "off"] then some false
  else none

def truthOfDecimal? (spelling : String) : Option Bool :=
  let value := Binary64.ofSpelling spelling
  if value.isZero then some false else if value = Binary64.ofInt 1 then some true else none

def truth? : Json → Option Bool
  | .truth value => some value
  | .whole value => if value = 0 then some false else if value = 1 then some true else none
  | .decimal spelling => truthOfDecimal? spelling
  | .text value => truthOfText? value
  | _ => none

def text? : Json → Option String
  | .text value => some value
  | _ => none

/-- Variables by lower case name, the last of each name counting. -/
def foldNames {α : Type} (entries : Entries String α) : Entries String α :=
  Entries.ofList (entries.map fun entry => (Text.lower entry.1, entry.2))

structure Sources where
  /-- Values given explicitly; null leaves a setting open. -/
  overrides : Entries String Json
  environment : Entries String String
  /-- The text of the environment file, if there is one. -/
  file : Option String

def Sources.named? (sources : Sources) (name : String) : Option String :=
  let ofFile := (sources.file.map (EnvFile.parse sources.environment)).getD []
  ((foldNames sources.environment).get? name).or ((foldNames ofFile).get? name).join

def Sources.value? (sources : Sources) (field : SettingField) : Option Json :=
  let given := (sources.named? (Text.lower (nameStart ++ field.name))).map Json.text
  match sources.overrides.get? field.name with
  | some .null => given
  | some json => some json
  | none => given

def readSetting {α : Type} (read? : Json → Option α) (default : α) (value : Option Json) :
    Option α :=
  match value with
  | none => some default
  | some json => read? json

def load (sources : Sources) : Except InvalidSettings Settings :=
  let logFilter := readSetting text? defaults.logFilter (sources.value? .logFilter)
  let strict := readSetting truth? defaults.strict (sources.value? .strict)
  let renderFailures :=
    readSetting truth? defaults.renderFailures (sources.value? .renderFailures)
  match logFilter, strict, renderFailures with
  | some logFilter, some strict, some renderFailures => .ok ⟨logFilter, strict, renderFailures⟩
  | logFilter, strict, renderFailures =>
    .error ⟨(if logFilter.isNone then [.logFilter] else []) ++
      (if renderFailures.isNone then [.renderFailures] else []) ++
      (if strict.isNone then [.strict] else [])⟩

end Settings

end BuilderFields
