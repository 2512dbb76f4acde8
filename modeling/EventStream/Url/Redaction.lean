import EventStream.Text.Basic

/-
# Redaction

A WebSocket URL carries the token as a query parameter, and no log line and no fault may show it.
Redaction replaces the value of every `token` parameter by three stars. It cuts the query at the
ampersands and looks at each piece on its own, so everything else stays as it is.
-/

namespace EventStream.Url

/-- The name of the parameter that is hidden. -/
def secretName : Text := "token"

/-- A piece of a query with its value hidden, if it is a token. -/
def redactPiece (piece : Text) : Text :=
  match Text.cut '=' piece with
  | (name, some _) => if name = secretName then secretName ++ Text.ofString "=***" else piece
  | (_, none) => piece

/-- A URL with the values of its tokens hidden. -/
def redact (url : Text) : Text :=
  match Text.cut '?' url with
  | (_, none) => url
  | (head, some query) =>
    head ++ .scalar '?' :: Text.join [.scalar '&'] ((Text.split '&' query).map redactPiece)

end EventStream.Url
