import EventStream.Endpoint
import EventStream.Policy.Configured
import EventStream.Session.Basic

/-
# What can be watched

The platform offers four subscriptions: the progress of skill synchronisation and the output
workspace of an agent, the channel of one session, and a streamed feed. Each has its endpoint, its
records, its group of the settings for the policy, and its name. The channel of a session is
prepared only, so that messages can be queued before it connects; the others connect at once and
take the subscriber's handler. A feed is receive-only.

What carries the connections is put together after the endpoint and before the policy is read, so
of several mistakes in the settings the first one in this order is reported.
-/

namespace EventStream

/-- A subscription that the platform offers. Identifiers and tokens may be values of any kind; a
token or base that is empty is taken from the settings. -/
inductive Watch where
  | skillSync (agent token : Value)
  | output (agent token : Value)
  | channel (user session base : Value)
  | feed (path : Text) (token : Value) (model : Option EventModel)

namespace Watch

open EventStream.Config

/-- Where the subscription connects to. -/
def endpoint (s : Store) : Watch → Except Endpoint.Error Text
  | .skillSync agent token => do
    let base ← Endpoint.webSocketBase s
    Endpoint.skillSync base agent (← Endpoint.tokenFor s token)
  | .output agent token => do
    let base ← Endpoint.webSocketBase s
    Endpoint.outputWatch base agent (← Endpoint.tokenFor s token)
  | .channel user session base => do
    let base ← if base.isEmpty then Endpoint.sessionBase s else .ok base.toText
    Endpoint.sessionChannel base user session
  | .feed path _ _ => return Endpoint.stream (← Endpoint.apiBase s) path

/-- How its frames are decoded. -/
def decoder : Watch → FrameDecoder
  | .skillSync .. => .json (some .skillSync)
  | .output .. => .json (some .output)
  | .channel .. => .text
  | .feed _ _ model => .json model

/-- The group of the settings that describes its policy. -/
def group : Watch → Text
  | .skillSync .. => "skill_sync"
  | .output .. => "output_watch"
  | .channel .. => "session_channel"
  | .feed .. => "event_stream"

/-- How its session is called. -/
def name : Watch → Text
  | .skillSync agent _ => Text.concat ["skill-sync:", agent.toText]
  | .output agent _ => Text.concat ["output:", agent.toText]
  | .channel _ session _ => Text.concat ["session:", session.toText]
  | .feed path _ _ => Text.concat ["stream:", path]

/-- Whether messages can be sent. -/
def isOutbound : Watch → Bool
  | .feed .. => false
  | _ => true

/-- Whether it takes the subscriber's handler and connects at once. -/
def startsAtOnce : Watch → Bool
  | .channel .. => false
  | _ => true

/-- What carries the connections of a subscription. -/
inductive Carrier where
  | webSocket (openTimeout : Float)
  | httpStream (headers : Table)

/-- The time that a WebSocket may take to open. -/
def openTimeout (s : Store) : Except Fault Float := do
  match ← s.find ["transport", "open_timeout"] with
  | .value v => v.toFloat.mapError CoercionError.toFault
  | .group _ => .error (CoercionError.doubleOfKind "ConfigSection").toFault

/-- What carries the connections by the settings. -/
def carrier (s : Store) : Watch → Except Fault Carrier
  | .feed _ token _ => do
    let token ← (Endpoint.tokenFor s token).mapError Endpoint.Error.toFault
    return .httpStream (Endpoint.bearerHeaders (.text token))
  | _ => return .webSocket (← openTimeout s)

/-- The session of a subscription, together with what carries it. -/
def plan {α : Type} (s : Store) (w : Watch) (carrier : Except Fault α) :
    Except Fault (Session.Setup × α) := do
  let endpoint ← (w.endpoint s).mapError Endpoint.Error.toFault
  let carrier ← carrier
  let policy ← s.policy w.group
  return ({
    endpoint
    name := w.name
    decode := Session.decodeBy w.decoder
    policy
    outbound := w.isOutbound }, carrier)

end Watch

end EventStream
