import ModuleFence.Text.Basic

set_option autoImplicit false

namespace ModuleFence

inductive LogLevel where
  | debug
  | info
  | warning
  | error
  | critical
deriving DecidableEq, Repr

namespace LogLevel

def name : LogLevel → String
  | debug => "DEBUG"
  | info => "INFO"
  | warning => "WARNING"
  | error => "ERROR"
  | critical => "CRITICAL"

/-- The number of a level; graver levels have greater numbers. -/
def number : LogLevel → Nat
  | debug => 10
  | info => 20
  | warning => 30
  | error => 40
  | critical => 50

/-- All levels, the least grave first. -/
def all : List LogLevel :=
  [debug, info, warning, error, critical]

def ofName? (name : Text) : Option LogLevel :=
  all.find? fun level => Text.ofString level.name = name

end LogLevel

/-- The parts of the linter that write log records. -/
inductive LogSource where
  | configuration
  | store
  | moduleRule
  | linting
  | discovery
  | commandLine
deriving DecidableEq, Repr

/-- The name under which a part writes. -/
def LogSource.name : LogSource → String
  | configuration => "storelint.config"
  | store => "storelint.resolver"
  | moduleRule => "storelint.rules.disallow_module"
  | linting => "storelint.engine"
  | discovery => "storelint.discovery"
  | commandLine => "storelint.cli"

structure LogRecord where
  level : LogLevel
  source : LogSource
  message : Text
deriving DecidableEq

/-- The records that are at least as grave as a level. -/
def LogRecord.atLeast (level : LogLevel) (records : List LogRecord) : List LogRecord :=
  records.filter fun record => level.number ≤ record.level.number

end ModuleFence
