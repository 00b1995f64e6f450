import BuilderFields.Entries

/-!
# Log levels

Seven levels have names, and each has a number that orders it. A record may also carry a bare number that
belongs to no name.
-/

namespace BuilderFields

inductive LogLevel
  | trace
  | debug
  | info
  | success
  | warning
  | error
  | critical
deriving Repr, DecidableEq

namespace LogLevel

def all : List LogLevel :=
  [trace, debug, info, success, warning, error, critical]

def name : LogLevel → String
  | trace => "TRACE"
  | debug => "DEBUG"
  | info => "INFO"
  | success => "SUCCESS"
  | warning => "WARNING"
  | error => "ERROR"
  | critical => "CRITICAL"

def number : LogLevel → Int
  | trace => 5
  | debug => 10
  | info => 20
  | success => 25
  | warning => 30
  | error => 40
  | critical => 50

def ofName? (name : String) : Option LogLevel :=
  all.find? fun level => level.name = name

theorem mem_all (level : LogLevel) : level ∈ all := by
  cases level <;> decide

theorem ofName?_name (level : LogLevel) : ofName? level.name = some level := by
  cases level <;> decide

theorem ofName?_eq_some_iff {name : String} {level : LogLevel} :
    ofName? name = some level ↔ level.name = name := by
  constructor
  · intro h
    simpa using List.find?_some h
  · rintro rfl
    exact ofName?_name level

end LogLevel

inductive Severity
  | named (level : LogLevel)
  | numbered (number : Int)
deriving Repr, DecidableEq

namespace Severity

def number : Severity → Int
  | named level => level.number
  | numbered number => number

def text : Severity → String
  | named level => level.name
  | numbered number => "Level " ++ toString number

end Severity

structure LogRecord where
  severity : Severity
  module : String
  message : String
deriving Repr, DecidableEq

end BuilderFields
