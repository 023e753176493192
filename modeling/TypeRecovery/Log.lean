/-! Log files and the levels that reach them. -/
namespace TypeRecovery

inductive LogLevel where
  | critical
  | error
  | warning
  | info
  | debug
  | trace
deriving DecidableEq

namespace LogLevel

def all : List LogLevel := [critical, error, warning, info, debug, trace]

def rank : LogLevel → Nat
  | critical => 0
  | error => 1
  | warning => 2
  | info => 3
  | debug => 4
  | trace => 5

def tag : LogLevel → String
  | critical => "CRIT"
  | error => "ERRO"
  | warning => "WARN"
  | info => "INFO"
  | debug => "DEBG"
  | trace => "TRCE"

/-- The least severe level shown at a verbosity. -/
def threshold : Nat → LogLevel
  | 0 => warning
  | 1 => info
  | 2 => debug
  | _ => trace

def isShown (level : LogLevel) (verbosity : Nat) : Bool := level.rank ≤ (threshold verbosity).rank

end LogLevel

structure LogRecord where
  level : LogLevel
  message : String
  values : List (String × Nat) := []
deriving DecidableEq

def optionalValue (name : String) (value : Option Nat) : List (String × Nat) :=
  value.toList.map fun v => (name, v)

def logFile (verbosity : Nat) (records : List LogRecord) : List LogRecord :=
  records.filter fun r => r.level.isShown verbosity

end TypeRecovery
