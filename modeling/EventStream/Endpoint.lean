import EventStream.Config.Store
import EventStream.Url.Split
import EventStream.Url.Redaction

/-
# Endpoints of the platform

The platform pushes events at a few fixed paths below base URLs that the settings give. The
WebSocket base may be left out; it then stands beside the HTTP API, with the scheme swapped and the
last part `/api` of the path removed, because the paths of the watches include it.

WebSocket endpoints carry the token in the query. Identifiers and tokens may be values of any kind;
they are written as texts and quoted, so that no separator in them can reach another part of the
URL. One that cannot be written or quoted has no URL.
-/

namespace EventStream.Endpoint

open EventStream.Config

/-- The slash. -/
abbrev slash : CodePoint := .scalar '/'

/-- A base URL without the slashes at its end. -/
def trimSlashes (t : Text) : Text := Text.dropEnd (· = slash) t

/-- Why there is no URL. -/
inductive Error where
  | noApiUrl
  | notHttp (url : Text)
  | noToken
  | split (e : Url.SplitError)
  | write (e : CoercionError)
  | encode (e : Utf8.EncodeError)
  | lookup (e : LookupError)
  | notCallable (kind : Text)

/-- A missing URL as a fault. -/
def Error.toFault : Error → Fault
  | .noApiUrl => .configuration "endpoints.api_url is required." []
  | .notHttp url =>
    .configuration (Text.concat ["Cannot derive a WebSocket URL from '", url, "'"]) []
  | .noToken => .configuration "An auth token is required. Pass token= or set SAC_TOKEN." []
  | .split e => e.toFault
  | .write e => e.toFault
  | .encode e => e.toFault
  | .lookup e => e.toFault
  | .notCallable kind => .raised .type (Text.concat ["'", kind, "' object is not callable"])

/-- The URL of a setting without the slashes at its end; an absent one counts as empty. -/
def urlOf (found : Found) : Except Error Text :=
  if found.isEmpty then .ok []
  else match found with
    | .value (.text t) => .ok (trimSlashes t)
    | found =>
      match found.find "rstrip" with
      | .error e => .error (.lookup e)
      | .ok (.value v) => .error (.notCallable v.kindName)
      | .ok (.group _) => .error (.notCallable "ConfigSection")

/-- The URL of an endpoint setting. -/
def setting (s : Store) (key : Text) : Except Error Text :=
  match (Found.group s.root).findAll ["endpoints", key] with
  | .error e => .error (.lookup e)
  | .ok found => urlOf found

/-- The base of the HTTP API. -/
def apiBase (s : Store) : Except Error Text := do
  let url ← setting s "api_url"
  if url.isEmpty then .error .noApiUrl else .ok url

/-- The scheme of WebSocket URLs beside an HTTP scheme. -/
def webSocketScheme? (scheme : Text) : Option Text :=
  if scheme = Text.ofString "https" then some "wss"
  else if scheme = Text.ofString "http" then some "ws"
  else none

/-- The last part of the path of the HTTP API. -/
def apiPart : Text := "/api"

/-- The path of an HTTP API without the slashes at its end and without its last part. -/
def besidePath (path : Text) : Text :=
  let path := trimSlashes path
  if Text.endsWith path apiPart then path.take (path.length - apiPart.length) else path

/-- The WebSocket URL beside an HTTP API. -/
def deriveWebSocket (url : Text) : Except Error Text :=
  match Url.split url with
  | .error e => .error (.split e)
  | .ok parts =>
    match webSocketScheme? parts.scheme with
    | none => .error (.notHttp url)
    | some scheme => .ok (Url.assemble scheme parts.authority (besidePath parts.path))

/-- The base of the WebSocket endpoints: the one that is set, otherwise the one beside the API. -/
def webSocketBase (s : Store) : Except Error Text := do
  let explicit ← setting s "ws_url"
  if explicit.isEmpty then deriveWebSocket (← apiBase s) else .ok explicit

/-- The base of the session channels: the one that is set, otherwise that of the other WebSocket
endpoints. -/
def sessionBase (s : Store) : Except Error Text := do
  let url ← setting s "session_ws_url"
  if url.isEmpty then webSocketBase s else .ok url

/-- A value as a text of its own. -/
def written (v : Value) : Except Error Text := v.asText.mapError .write

/-- A text as it stands in a URL. -/
def quoted (place : Url.Place) (t : Text) : Except Error Text :=
  (Url.quote place t).mapError .encode

/-- A URL with the query that names an agent and carries a token. Both are written before either is
quoted. -/
def watchUrl (base path : Text) (agent token : Value) : Except Error Text := do
  let agent ← written agent
  let token ← written token
  let agent ← quoted .query agent
  let token ← quoted .query token
  return Text.concat [trimSlashes base, path, "?agent_id=", agent, "&token=", token]

/-- Where the synchronisation of skills is watched. -/
def skillSync (base : Text) (agent token : Value) : Except Error Text :=
  watchUrl base "/api/skill-sync/watch" agent token

/-- Where the output workspace is watched. -/
def outputWatch (base : Text) (agent token : Value) : Except Error Text :=
  watchUrl base "/api/workspace/output/watch" agent token

/-- Where the channel of a session is. -/
def sessionChannel (base : Text) (user session : Value) : Except Error Text := do
  let user ← quoted .path (← written user)
  let session ← quoted .path (← written session)
  return Text.concat [trimSlashes base, "/ws/", user, "/", session]

/-- Where a streamed feed is: an absolute URL as it is, a path below the API. Whatever holds `://`
counts as absolute. -/
def stream (base path : Text) : Text :=
  if Text.containsText "://" path then path
  else Text.concat [trimSlashes base, "/", Text.dropStart (· = slash) path]

/-- The headers that carry a token; an empty token has none. -/
def bearerHeaders (token : Value) : Table :=
  if token.isEmpty then []
  else [("Authorization", .text (Text.concat ["Bearer ", token.toText]))]

/-- The token to use: the one given, otherwise the one of the settings. -/
def tokenFor (s : Store) (given : Value) : Except Error Text :=
  if !given.isEmpty then written given
  else match (Found.group s.root).findAll ["auth", "token"] with
    | .error e => .error (.lookup e)
    | .ok found =>
      if found.isEmpty then .error .noToken
      else match found with
        | .group g => .ok g.shown
        | .value v => written v

end EventStream.Endpoint
