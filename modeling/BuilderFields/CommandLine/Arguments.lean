/-!
# Command line arguments

Options and arguments may be mixed. A long option takes its value from behind an equals sign or from the
next argument, a short one from the rest of its own argument or from the next, and a value may look like
an option. Two dashes end the options, and a single dash is an argument. The command comes before all of
its options.
-/

namespace BuilderFields

inductive UsageFault
  | noCommand
  | unknownCommand (name : String)
  | unknownOption (option : String)
  | missingValue (option : String)
  | unexpectedValue (option : String)
  | argumentCount (expected found : Nat)
  | noSuchFile (path : String)
deriving Repr, DecidableEq

def UsageFault.message : UsageFault → String
  | .noCommand => "missing command"
  | .unknownCommand name => "no such command: " ++ name
  | .unknownOption option => "no such option: " ++ option
  | .missingValue option => "option needs a value: " ++ option
  | .unexpectedValue option => "option takes no value: " ++ option
  | .argumentCount expected found =>
    "expected " ++ toString expected ++ " arguments, found " ++ toString found
  | .noSuchFile path => "no such file: " ++ path

inductive OptionKind
  | flag
  /-- Takes a value; the letter is the short spelling. -/
  | valued (letter : Option Char)
deriving Repr, DecidableEq

structure OptionSpec where
  /-- The long spelling without its dashes. -/
  name : String
  kind : OptionKind
deriving Repr, DecidableEq

structure GivenArguments where
  options : List (String × Option String)
  arguments : List String
deriving Repr, DecidableEq

namespace GivenArguments

def addOption (given : GivenArguments) (name : String) (value : Option String) : GivenArguments :=
  { given with options := (name, value) :: given.options }

def addArgument (given : GivenArguments) (argument : String) : GivenArguments :=
  { given with arguments := argument :: given.arguments }

def hasFlag (given : GivenArguments) (name : String) : Bool :=
  given.options.any (·.1 = name)

def values (given : GivenArguments) (name : String) : List String :=
  given.options.filterMap fun option => if option.1 = name then option.2 else none

def value? (given : GivenArguments) (name : String) : Option String :=
  (given.values name).getLast?

inductive Reading
  | argument
  | endOfOptions
  | flag (name : String)
  | valued (name : String)
  | valuedWith (name value : String)
  | fault (fault : UsageFault)

def readLong (specs : List OptionSpec) (body : List Char) : Reading :=
  let name := String.ofList (body.takeWhile (· ≠ '='))
  match specs.find? (·.name = name), body.dropWhile (· ≠ '=') with
  | none, _ => .fault (.unknownOption name)
  | some ⟨_, .flag⟩, [] => .flag name
  | some ⟨_, .flag⟩, _ :: _ => .fault (.unexpectedValue name)
  | some ⟨_, .valued _⟩, [] => .valued name
  | some ⟨_, .valued _⟩, _ :: value => .valuedWith name (String.ofList value)

def readShort (specs : List OptionSpec) (letter : Char) (tail : List Char) : Reading :=
  match specs.find? (·.kind = .valued (some letter)) with
  | none => .fault (.unknownOption (String.singleton letter))
  | some spec => if tail.isEmpty then .valued spec.name else .valuedWith spec.name (String.ofList tail)

def readArgument (specs : List OptionSpec) (argument : String) : Reading :=
  match argument.toList with
  | ['-', '-'] => .endOfOptions
  | '-' :: '-' :: body => readLong specs body
  | '-' :: letter :: tail => readShort specs letter tail
  | _ => .argument

def parse (specs : List OptionSpec) : List String → Except UsageFault GivenArguments
  | [] => .ok ⟨[], []⟩
  | argument :: rest =>
    match readArgument specs argument with
    | .fault fault => .error fault
    | .endOfOptions => .ok ⟨[], rest⟩
    | .argument => (parse specs rest).map fun given => given.addArgument argument
    | .flag name => (parse specs rest).map fun given => given.addOption name none
    | .valuedWith name value =>
      (parse specs rest).map fun given => given.addOption name (some value)
    | .valued name =>
      match rest with
      | [] => .error (.missingValue name)
      | value :: rest => (parse specs rest).map fun given => given.addOption name (some value)

end GivenArguments

structure SettingOptions where
  logFilter : Option String
  strict : Bool
deriving Repr, DecidableEq

inductive Invocation
  | styles
  | infer (style consumer name : String) (typeVariables : List String) (settings : SettingOptions)
  | plan (request : String) (asJson : Bool) (settings : SettingOptions)
deriving Repr, DecidableEq

namespace Invocation

def settingSpecs : List OptionSpec :=
  [⟨"log-filter", .valued none⟩, ⟨"strict", .flag⟩]

def settingOptions (given : GivenArguments) : SettingOptions where
  logFilter := given.value? "log-filter"
  strict := given.hasFlag "strict"

def defaultName : String := "value"

def parseStyles (args : List String) : Except UsageFault Invocation := do
  let given ← GivenArguments.parse [] args
  match given.arguments with
  | [] => .ok .styles
  | arguments => .error (.argumentCount 0 arguments.length)

def parseInfer (args : List String) : Except UsageFault Invocation := do
  let specs :=
    [⟨"name", .valued (some 'n')⟩, ⟨"type-variable", .valued (some 't')⟩] ++ settingSpecs
  let given ← GivenArguments.parse specs args
  match given.arguments with
  | [style, consumer] =>
    .ok (.infer style consumer ((given.value? "name").getD defaultName)
      (given.values "type-variable") (settingOptions given))
  | arguments => .error (.argumentCount 2 arguments.length)

def parsePlan (args : List String) : Except UsageFault Invocation := do
  let given ← GivenArguments.parse (⟨"json", .flag⟩ :: settingSpecs) args
  match given.arguments with
  | [request] => .ok (.plan request (given.hasFlag "json") (settingOptions given))
  | arguments => .error (.argumentCount 1 arguments.length)

def parseCommand (name : String) (args : List String) : Except UsageFault Invocation :=
  match name with
  | "styles" => parseStyles args
  | "infer" => parseInfer args
  | "plan" => parsePlan args
  | name => .error (.unknownCommand name)

/-- Reads the command and then its arguments; no option may come first. -/
def parse (args : List String) : Except UsageFault Invocation :=
  match args with
  | [] => .error .noCommand
  | first :: rest =>
    match GivenArguments.readArgument [] first with
    | .argument => parseCommand first rest
    | .endOfOptions =>
      match rest with
      | [] => .error .noCommand
      | name :: rest => parseCommand name rest
    | .fault fault => .error fault
    | _ => .error (.unknownOption first)

end Invocation

end BuilderFields
