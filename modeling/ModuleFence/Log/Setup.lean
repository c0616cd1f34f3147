import ModuleFence.Failure
import ModuleFence.Log
import ModuleFence.Text.Uppercase

set_option autoImplicit false

namespace ModuleFence

/-- How a handler writes a record, and its time. -/
structure LogHandler where
  format : String
  dateFormat : String
deriving DecidableEq, Repr

/-- The state of logging; levels are numbers. -/
structure Logging where
  isConfigured : Bool := false
  rootLevel : Nat := LogLevel.warning.number
  level : Nat := LogLevel.debug.number
  handlers : List LogHandler := []
deriving DecidableEq, Repr

namespace Logging

def handler : LogHandler where
  format := "%(asctime)s - %(levelname)s - [%(name)s] - %(message)s"
  dateFormat := "%Y-%m-%dT%H:%M:%S"

/-- Further names of levels, with their numbers. -/
def otherNames : List (String × Nat) :=
  [("WARN", LogLevel.warning.number), ("FATAL", LogLevel.critical.number), ("NOTSET", 0)]

def levelNumber? (name : Text) : Option Nat :=
  ((LogLevel.ofName? name).map LogLevel.number)
    <|> (otherNames.find? fun pair => Text.ofString pair.1 = name).map (·.2)

/-- Installs the handler, unless that was done before or there is one. -/
def configure (logging : Logging) : Logging :=
  if logging.isConfigured then logging
  else
    { logging with
      isConfigured := true
      handlers := if logging.handlers = [] then [handler] else logging.handlers }

/-- Sets logging up with the name of a level, in any case. -/
def setUp (name : Text) (logging : Logging) : Option Failure × Logging :=
  let configured := logging.configure
  match levelNumber? name.upper with
  | some number => (none, { configured with level := number })
  | none => (some (.unknownLogLevel name.upper), configured)

/-- Takes all handlers away. -/
def dropHandlers (logging : Logging) : Logging :=
  { logging with handlers := [] }

end Logging

end ModuleFence
