import EventStream.Text.Basic

/-
# Log records

Every part of the library reports what it does on a channel of its own. Records are data: the
parts answer them, and whoever runs the parts decides which of them to keep.
-/

namespace EventStream

/-- How important a record is. -/
inductive LogLevel where
  | debug
  | info
  | warning
  | error
  deriving DecidableEq

/-- The rank of a level; a filter at some number lets the levels from there on through. -/
def LogLevel.rank : LogLevel → Nat
  | .debug => 10
  | .info => 20
  | .warning => 30
  | .error => 40

/-- The part of the library that reports. -/
inductive LogChannel where
  | config
  | decoder
  | outbound
  | session
  | transport
  deriving DecidableEq

/-- One report. -/
structure LogRecord where
  channel : LogChannel
  level : LogLevel
  message : Text
  deriving DecidableEq

end EventStream
