import BuilderFields.Log.Filter
import BuilderFields.Template.Braces
import BuilderFields.Template.Percents

/-!
# The state of logging

Records go to sinks, each with a filter of its own, and logging is off while there are none. Configuring
removes the sinks that are there and adds one with the new filter, and adds an interceptor, which forwards
the records of the standard loggers, unless one is there already. A filter that cannot be read changes
nothing.
-/

namespace BuilderFields

structure LogSetup where
  /-- The filters of the sinks, in the order in which the sinks were added. -/
  sinks : List LogFilter
  /-- How many interceptors forward the records of standard loggers. -/
  interceptors : Nat
deriving Repr, DecidableEq

inductive LogError
  | unknownLevel (error : UnknownLevel)
  /-- A call that names a level which does not exist. -/
  | noSuchLevel (name : String)
  | template (fault : TemplateFault)
deriving Repr, DecidableEq

def LogError.message : LogError → String
  | .unknownLevel error => error.message
  | .noSuchLevel name => "Level '" ++ name ++ "' does not exist"
  | .template fault => fault.message

inductive LogCall
  | configure (filter : String)
  /-- A call to the logger itself, with a level name. -/
  | direct (module level message : String) (arguments : List Json)
  /-- A call to a standard logger, with a level number. -/
  | standard (module : String) (level : Int) (message : String) (arguments : List Json)
deriving Repr

namespace LogSetup

def initial : LogSetup where
  sinks := []
  interceptors := 0

def loggingModule : String := "callbuilder.logging_utils"

def sinkLevel : LogLevel := .trace

def write (setup : LogSetup) (record : LogRecord) : List LogRecord :=
  setup.sinks.flatMap fun filter =>
    if sinkLevel.number ≤ record.severity.number ∧
        filter.keeps record.module record.severity.number = true then
      [record]
    else
      []

def writeAll (setup : LogSetup) (records : List LogRecord) : List LogRecord :=
  records.flatMap setup.write

def announcement (filter : LogFilter) : LogRecord :=
  ⟨.named .debug, loggingModule,
    "logging.configured level=" ++ filter.levelText ++ " filter=" ++ filter.displayRules⟩

def removeSinks (setup : LogSetup) : LogSetup where
  sinks := []
  interceptors := setup.interceptors

def addSink (setup : LogSetup) (filter : LogFilter) : LogSetup where
  sinks := setup.sinks ++ [filter]
  interceptors := setup.interceptors

def intercept (setup : LogSetup) : LogSetup where
  sinks := setup.sinks
  interceptors := if setup.interceptors = 0 then 1 else setup.interceptors

def install (setup : LogSetup) (filter : LogFilter) : LogSetup :=
  (setup.removeSinks.addSink filter).intercept

/-- The level names that standard loggers know by number; every other number stays one. -/
def standardSeverity (level : Int) : Severity :=
  match [LogLevel.debug, .info, .warning, .error, .critical].find? (·.number = level) with
  | some known => .named known
  | none => .numbered level

def standardThreshold : Int := 1

/-- Writes a message with its arguments filled in; without sinks it is not even looked at. -/
def log (setup : LogSetup) (severity : Severity) (module message : String) (arguments : List Json) :
    List LogRecord × Option LogError :=
  if setup.sinks.isEmpty then
    ([], none)
  else
    match Template.braces message arguments with
    | .error fault => ([], some (.template fault))
    | .ok text => (setup.write ⟨severity, module, text⟩, none)

def forward (setup : LogSetup) (severity : Severity) (module text : String) :
    Nat → List LogRecord × Option LogError
  | 0 => ([], none)
  | interceptors + 1 =>
    match setup.log severity module text [] with
    | (written, some error) => (written, some error)
    | (written, none) =>
      let (others, error) := setup.forward severity module text interceptors
      (written ++ others, error)

def perform (setup : LogSetup) : LogCall → LogSetup × List LogRecord × Option LogError
  | .configure text =>
    match LogFilter.parse text with
    | .error error => (setup, [], some (.unknownLevel error))
    | .ok filter =>
      let installed := setup.install filter
      (installed, installed.write (announcement filter), none)
  | .direct module level message arguments =>
    if setup.sinks.isEmpty then
      (setup, [], none)
    else
      match LogLevel.ofName? level with
      | none => (setup, [], some (.noSuchLevel level))
      | some level => (setup, setup.log (.named level) module message arguments)
  | .standard module level message arguments =>
    if level < standardThreshold ∨ setup.interceptors = 0 then
      (setup, [], none)
    else
      match Template.percents message arguments with
      | .error fault => (setup, [], some (.template fault))
      | .ok text => (setup, setup.forward (standardSeverity level) module text setup.interceptors)

end LogSetup

end BuilderFields
