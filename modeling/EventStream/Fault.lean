import EventStream.Value.Basic

/-
# Faults

What can go wrong is told apart by who has to act. A `configuration` fault means that settings or
arguments have to be changed, a `transport` fault that one connection failed, a `receiveOnly`
fault that a message was sent where none can be, and `stream` is the general form of the three.
All of them carry details, which follow the message when the fault is shown. Everything else is a
`raised` fault with the kind under which it is known; handlers and transports that the library
does not own raise faults of kinds of their own.
-/

namespace EventStream

/-- What accompanies the message of a fault: keys and values, in order. -/
abbrev Details := List (Value × Value)

/-- The details with text keys. -/
def Details.ofTable (t : Table) : Details := t.map fun (k, v) => (.text k, v)

/-- Details as they follow a message. -/
def Details.shown (d : Details) : Text :=
  let entry := fun (e : Value × Value) => Text.concat [e.1.shown, ": ", e.2.shown]
  Text.concat ["\x7b", Text.join ", " (d.map entry), "\x7d"]

/-- The kinds of faults that are not the library's own. -/
inductive FaultKind where
  | value
  | type
  | key
  | overflow
  | attribute
  | index
  | lookup
  | runtime
  | recursion
  | io
  | decoding
  | encoding
  | document
  | named (label : Text)
  deriving DecidableEq

/-- The name of a kind in messages. -/
def FaultKind.label : FaultKind → Text
  | .value => "ValueError"
  | .type => "TypeError"
  | .key => "KeyError"
  | .overflow => "OverflowError"
  | .attribute => "AttributeError"
  | .index => "IndexError"
  | .lookup => "LookupError"
  | .runtime => "RuntimeError"
  | .recursion => "RecursionError"
  | .io => "OSError"
  | .decoding => "UnicodeDecodeError"
  | .encoding => "UnicodeEncodeError"
  | .document => "JSONDecodeError"
  | .named label => label

/-- The kind of which a kind is a special case, if there is one. -/
def FaultKind.parent? : FaultKind → Option FaultKind
  | .decoding | .encoding | .document => some .value
  | .key | .index => some .lookup
  | .recursion => some .runtime
  | _ => none

/-- Whether a kind is another one or a special case of it. -/
def FaultKind.isA (kind general : FaultKind) : Bool :=
  kind = general || kind.parent? = some general

/-- The failure of one connection. The code is the one that the peer gave, or null. -/
structure TransportFault where
  message : Text
  code : Value := .null
  details : Details := []

/-- A failure that reaches a caller or a handler. -/
inductive Fault where
  | stream (message : Text) (details : Details)
  | configuration (message : Text) (details : Details)
  | transport (fault : TransportFault)
  | receiveOnly (message : Text) (details : Details)
  | raised (kind : FaultKind) (message : Text)

instance : Inhabited Fault := ⟨.raised .runtime []⟩

namespace Fault

/-- The name under which a fault is known. -/
def label : Fault → Text
  | .stream .. => "StreamError"
  | .configuration .. => "ConfigurationError"
  | .transport _ => "TransportError"
  | .receiveOnly .. => "SendNotSupportedError"
  | .raised kind _ => kind.label

/-- The message without the details. -/
def message : Fault → Text
  | .stream m _ => m
  | .configuration m _ => m
  | .transport f => f.message
  | .receiveOnly m _ => m
  | .raised _ m => m

/-- The details; a raised fault has none. -/
def details : Fault → Details
  | .stream _ d => d
  | .configuration _ d => d
  | .transport f => f.details
  | .receiveOnly _ d => d
  | .raised .. => []

/-- The message, followed by the details if there are any. -/
def shown (f : Fault) : Text :=
  if f.details.isEmpty then f.message else Text.concat [f.message, ": ", f.details.shown]

/-- Whether a fault is of one of the kinds. -/
def isOneOf (kinds : List FaultKind) : Fault → Bool
  | .raised kind _ => kinds.any kind.isA
  | _ => false

/-- A fault as a transport fault, if it is one. -/
def transport? : Fault → Option TransportFault
  | .transport f => some f
  | _ => none

end Fault

end EventStream
