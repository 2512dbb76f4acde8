import EventStream.Policy.Basic

/-
# Policies from settings

A settings file writes a policy as a table with four entries, each of which may be missing. A
settings file knows no null, so a limit of zero attempts means no limit and a cap of zero means no
cap. The values may be of any kind; one that is not the number wanted is a mistake in the
configuration, and the fault shows the whole table. A value beyond the range of doubles is not
taken for a mistake: it raises a fault of its own.

Settings may also come as anything that lists pairs of a key and a value (`Settings.ofValue`).
-/

namespace EventStream

/-- Settings whose keys may be any values. -/
abbrev Settings := Details

namespace Settings

/-- The value of a text key. -/
def get? (s : Settings) (key : Text) : Option Value :=
  s.findSome? fun (k, v) =>
    match k with
    | .text t => if t = key then some v else none
    | _ => none

/-- Set a key: in its place if an equal key occurs, at the end otherwise. -/
def set (s : Settings) (key value : Value) : Settings :=
  match s with
  | [] => [(key, value)]
  | (k, v) :: rest => if k.same key then (k, value) :: rest else (k, v) :: set rest key value

/-- The things that a value lists, if it lists any: the code points of a text, the bytes of a
byte string, the items of a list, the keys of a table. -/
def listed? : Value → Option (List Value)
  | .text t => some (t.map fun c => .text [c])
  | .bytes b => some (b.map fun x => .int x.toNat)
  | .list items => some items
  | .table entries => some (entries.map fun e => .text e.1)
  | _ => none

/-- Whether a value can be a key. -/
def isKey : Value → Bool
  | .list _ | .table _ => false
  | _ => true

/-- Why a value does not list pairs. -/
inductive PairsError where
  | notListed (kind : Text)
  | notPair (index : Nat)
  | wrongLength (index length : Nat)
  | key (kind : Text)

/-- A value that does not list pairs, as a fault. -/
def PairsError.toFault : PairsError → Fault
  | .notListed kind => .raised .type (Text.concat ["'", kind, "' object is not iterable"])
  | .notPair index =>
    .raised .type (Text.concat ["cannot convert dictionary update sequence element #",
      Text.ofNat index, " to a sequence"])
  | .wrongLength index length =>
    .raised .value (Text.concat ["dictionary update sequence element #", Text.ofNat index,
      " has length ", Text.ofNat length, "; 2 is required"])
  | .key kind => .raised .type (Text.concat ["unhashable type: '", kind, "'"])

/-- Settings of listed pairs; `index` counts the pairs before. -/
def ofPairs (s : Settings) (index : Nat) : List Value → Except PairsError Settings
  | [] => .ok s
  | pair :: rest =>
    match listed? pair with
    | none => .error (.notPair index)
    | some [key, value] =>
      if isKey key then ofPairs (s.set key value) (index + 1) rest else .error (.key key.kindName)
    | some other => .error (.wrongLength index other.length)

/-- The settings of a value: a table, or whatever lists pairs. -/
def ofValue : Value → Except PairsError Settings
  | .table entries => .ok (Details.ofTable entries)
  | v =>
    match listed? v with
    | none => .error (.notListed v.kindName)
    | some items => ofPairs [] 0 items

/-- The value of a key read as a number, or a default. -/
def read {α : Type} (s : Settings) (key : Text) (default : α)
    (coerce : Value → Except CoercionError α) : Except CoercionError α :=
  match s.get? key with
  | none => .ok default
  | some v => coerce v

/-- The settings of a policy, before they are checked. -/
def backoff (s : Settings) : Except CoercionError (Backoff Number) := do
  let maxAttempts ← s.read "max_attempts" 0 Value.toInt
  let baseDelay ← s.read "base_delay" 2.0 Value.toFloat
  let multiplier ← s.read "backoff_multiplier" 1.0 Value.toFloat
  let maxDelay ← s.read "max_delay" 0.0 Value.toFloat
  return {
    maxAttempts := if maxAttempts = 0 then none else some maxAttempts
    baseDelay := .float baseDelay
    multiplier := .float multiplier
    maxDelay := if maxDelay == 0.0 then none else some (.float maxDelay) }

end Settings

/-- A policy whose rules have been checked, with a broken rule as a fault. -/
def ReconnectPolicy.make (b : Backoff Number) : Except Fault (ReconnectPolicy Number) :=
  (ReconnectPolicy.ofBackoff b).mapError BackoffFlaw.toFault

/-- The policy that settings describe. A value of the wrong kind is a configuration fault; one out
of range is not. -/
def ReconnectPolicy.ofSettings (s : Settings) : Except Fault (ReconnectPolicy Number) :=
  match s.backoff with
  | .ok b => ReconnectPolicy.make b
  | .error e =>
    .error <|
      if e.kind = .overflow then e.toFault
      else .configuration (Text.concat ["Invalid reconnect settings: ", e.message]) s

/-- The policy that a value describes. -/
def ReconnectPolicy.ofValue (v : Value) : Except Fault (ReconnectPolicy Number) :=
  match Settings.ofValue v with
  | .ok s => ReconnectPolicy.ofSettings s
  | .error e => .error e.toFault

/-- Whether a value is a number below a bound, where only numbers can be compared. -/
def numberArgument (v : Value) : Except Fault Number :=
  match Number.ofValue? v with
  | some n => .ok n
  | none =>
    .error (.raised .type (Text.concat ["'<' not supported between instances of '", v.kindName,
      "' and 'int'"]))

/-- The policy with given arguments; the ones that are not given have the defaults of a patient
policy. -/
def ReconnectPolicy.ofArguments (t : Table) : Except Fault (ReconnectPolicy Number) := do
  let maxAttempts ← match (t.get? "max_attempts").getD .null with
    | .null => pure none
    | v => match ← numberArgument v with
      | .int i => pure (some i)
      | .float x => pure (Binary64.truncate? x)
  let baseDelay ← numberArgument ((t.get? "base_delay").getD (.float 2.0))
  let multiplier ← numberArgument ((t.get? "backoff_multiplier").getD (.float 1.0))
  let maxDelay ← match (t.get? "max_delay").getD .null with
    | .null => pure none
    | v => some <$> numberArgument v
  ReconnectPolicy.make { maxAttempts, baseDelay, multiplier, maxDelay }

end EventStream
