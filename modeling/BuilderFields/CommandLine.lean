import BuilderFields.CommandLine.Arguments
import BuilderFields.Log.Setup
import BuilderFields.Plan.Document
import BuilderFields.Plan.Listing
import BuilderFields.Request
import BuilderFields.Settings
import BuilderFields.Text.Lines
import BuilderFields.Text.Terminal
import BuilderFields.Text.Utf8

/-!
# The command line

Three commands: list the built-in styles, infer one field, and plan a request file. A command is a function
of its arguments, the environment and the files it can see, and what it does is a report: an exit status,
the lines it prints and the log records it writes. A method that cannot be planned does not stop the
others.
-/

namespace BuilderFields

inductive FileState
  | missing
  | directory
  | file (bytes : List UInt8)

structure Surroundings where
  environment : Entries String String
  look : String → FileState

structure CommandReport where
  exit : Nat
  output : List String
  errors : List String
  records : List LogRecord
  /-- What was noticed about the environment file, before anything else is reported. -/
  notices : List String
deriving Repr

inductive CommandFault
  | usage (fault : UsageFault)
  | invalidSettings (notices : List String) (fault : InvalidSettings)
  | unreadableEnvFile (fault : Text.Utf8Fault)
deriving Repr

namespace CommandLine

def commandModule : String := "callbuilder.cli"

def envFileName : String := ".env"

def decodeText (bytes : List UInt8) : Except Text.Utf8Fault String :=
  (Text.decodeUtf8 bytes).map fun chars => String.ofList (Text.unifyLineEnds chars)

/-- A path as it is printed: without empty segments and without those that stay in place. -/
def displayPath (path : String) : String :=
  let cs := path.toList
  let root :=
    match cs with
    | ['/', '/'] => "//"
    | '/' :: '/' :: c :: _ => if c = '/' then "/" else "//"
    | '/' :: _ => "/"
    | _ => ""
  let segments := (Text.splitOnChar '/' cs).filter fun segment => segment ≠ [] ∧ segment ≠ ['.']
  let body := root ++ "/".intercalate (segments.map String.ofList)
  if body.isEmpty then "." else body

def settingOverrides (options : SettingOptions) : Entries String Json :=
  [(SettingField.logFilter.name, (options.logFilter.map Json.text).getD .null),
    (SettingField.strict.name, if options.strict then .truth true else .null)]

def loadEnvFile (surroundings : Surroundings) : Except CommandFault (Option String) :=
  match surroundings.look envFileName with
  | .file bytes => (some <$> decodeText bytes).mapError .unreadableEnvFile
  | _ => .ok none

def envFileNotices (file : Option String) : List String :=
  ((file.map EnvFile.unreadableLines).getD []).map fun line =>
    "python-dotenv could not parse statement starting at line " ++ toString line

def loadSettings (surroundings : Surroundings) (options : SettingOptions) :
    Except CommandFault (Settings × List String) := do
  let file ← loadEnvFile surroundings
  let notices := envFileNotices file
  let settings ← (Settings.load ⟨settingOverrides options, surroundings.environment, file⟩).mapError
    (.invalidSettings notices)
  .ok (settings, notices)

def errorRecord (message : String) : LogRecord :=
  ⟨.named .error, commandModule, message⟩

/-- Nothing failed, or some method did, or the strict setting minds what was not inferred. -/
def exitStatus (plans : List MethodPlan) (failures : Nat) (settings : Settings) : Nat :=
  if 0 < failures then 1
  else if settings.strict && plans.any fun plan => !plan.indeterminate.isEmpty then 1
  else 0

def stylesReport : Except Obstacle CommandReport := do
  let lines ← FieldStyle.builtins.mapM fun style => do
    let operations ← style.operations.mapM fun operation =>
      operation.canonicalText.mapError .foreignValue
    Except.ok ((style.name ++ ":") :: operations.map fun text => "  " ++ text)
  .ok ⟨0, lines.flatten, [], [], []⟩

def inferredMethod : String := "<infer>"

def inferPlan (style : FieldStyle) (consumer name : String) (typeVariables : List String) :
    Logged Obstacle MethodPlan := do
  let type ← .ofExcept ((TypeExpr.parse consumer typeVariables).mapError .unreadable)
  planMethod inferredMethod [⟨name, type⟩] [(name, style)]

def inferReport (settings : Settings) (style consumer name : String)
    (typeVariables : List String) : CommandReport :=
  match FieldStyle.builtinTable.get? style with
  | none =>
    let known := Text.commaJoin FieldStyle.builtinTable.keys
    ⟨2, [], ["unknown style " ++ style ++ "; known styles: " ++ known], [], []⟩
  | some found =>
    let planned := inferPlan found consumer name typeVariables
    match planned.outcome with
    | .error obstacle =>
      let failed :=
        errorRecord ("cli.infer.failed style=" ++ style ++ " error=" ++ obstacle.message)
      ⟨1, [], [obstacle.message], planned.records ++ [failed], []⟩
    | .ok plan =>
      ⟨exitStatus [plan] 0 settings, plan.listing settings.renderFailures, [], planned.records, []⟩

inductive RequestFileFault
  | notText (fault : Text.Utf8Fault)
  | request (fault : RequestFault)

def RequestFileFault.message : RequestFileFault → String
  | .notText fault => fault.message
  | .request cause => cause.message

def readRequest (bytes : List UInt8) : Except RequestFileFault Request := do
  let text ← (decodeText bytes).mapError .notText
  (Request.parse text).mapError .request

structure PlanningRun where
  plans : List MethodPlan
  errors : List String
  records : List LogRecord

def planMethods : List MethodRequest → PlanningRun
  | [] => ⟨[], [], []⟩
  | method :: rest =>
    let planned := method.plan
    let others := planMethods rest
    match planned.outcome with
    | .ok plan =>
      ⟨plan :: others.plans, others.errors, planned.records ++ others.records⟩
    | .error obstacle =>
      let failed := errorRecord
        ("cli.plan.method_failed method=" ++ method.name ++ " error=" ++ obstacle.message)
      ⟨others.plans, (method.name ++ ": " ++ obstacle.message) :: others.errors,
        planned.records ++ failed :: others.records⟩

def planOutput (asJson : Bool) (settings : Settings) (plans : List MethodPlan) : List String :=
  if asJson then [writePlans defaultIndent plans]
  else plans.flatMap (MethodPlan.listing settings.renderFailures)

def planReport (settings : Settings) (path : String) (bytes : List UInt8) (asJson : Bool) :
    CommandReport :=
  match readRequest bytes with
  | .error fault =>
    let bad := errorRecord
      ("cli.plan.bad_request path=" ++ displayPath path ++ " error=" ++ fault.message)
    ⟨2, [], ["invalid request " ++ displayPath path ++ ": " ++ fault.message], [bad], []⟩
  | .ok request =>
    let run := planMethods request.methods
    ⟨exitStatus run.plans run.errors.length settings, planOutput asJson settings run.plans,
      run.errors, run.records, []⟩

/-- Loads the settings and configures logging, then runs a command; its records pass the filter. -/
def withSettings (surroundings : Surroundings) (options : SettingOptions)
    (command : Settings → CommandReport) : Except CommandFault CommandReport := do
  let (settings, notices) ← loadSettings surroundings options
  match LogSetup.initial.perform (.configure settings.logFilter) with
  | (setup, announced, none) =>
    let report := command settings
    .ok { report with
      records := announced ++ setup.writeAll report.records
      notices := notices }
  | (_, _, some error) =>
    .ok ⟨2, [], ["invalid log filter " ++ Text.quote settings.logFilter ++ ": " ++ error.message],
      [], notices⟩

def runInvocation (surroundings : Surroundings) :
    Invocation → Except CommandFault CommandReport
  | .styles =>
    match stylesReport with
    | .ok report => .ok report
    | .error obstacle => .ok ⟨1, [], [obstacle.message], [], []⟩
  | .infer style consumer name typeVariables options =>
    withSettings surroundings options fun settings =>
      inferReport settings style consumer name typeVariables
  | .plan path asJson options =>
    match surroundings.look (displayPath path) with
    | .file bytes =>
      withSettings surroundings options fun settings => planReport settings path bytes asJson
    | _ => .error (.usage (.noSuchFile path))

def printable (report : CommandReport) : CommandReport :=
  { report with
    output := report.output.map Text.plainText
    errors := report.errors.map Text.plainText }

def run (surroundings : Surroundings) (args : List String) : Except CommandFault CommandReport := do
  let invocation ← (Invocation.parse args).mapError .usage
  let report ← runInvocation surroundings invocation
  .ok (printable report)

end CommandLine

end BuilderFields
