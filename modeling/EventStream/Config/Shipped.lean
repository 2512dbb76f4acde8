import EventStream.Text.Basic

/-
# The settings file that ships with the library

The file repeats the defaults, so that their author can see and change them. Loading it gives the
same settings as loading no file.
-/

namespace EventStream.Config

/-- The lines of one policy. -/
def shippedPolicy (name attempts delay multiplier cap : Text) : List Text :=
  [Text.concat ["[", name, "]"], Text.concat ["max_attempts = ", attempts],
    Text.concat ["base_delay = ", delay], Text.concat ["backoff_multiplier = ", multiplier],
    Text.concat ["max_delay = ", cap]]

/-- The lines of the file. -/
def shippedLines : List Text :=
  let plain : List Text := ["[endpoints]", "api_url = \"http://localhost:8080/api\"", "ws_url = \"\"",
    "session_ws_url = \"ws://localhost:8081\"", "[auth]", "token = \"\""]
  let rest : List Text := ["[transport]", "open_timeout = 10.0", "[logging]", "level = \"INFO\""]
  plain ++ shippedPolicy "session_channel" "5" "3.0" "1.0" "0" ++
    shippedPolicy "skill_sync" "0" "2.0" "1.0" "0" ++
    shippedPolicy "output_watch" "0" "2.0" "1.0" "0" ++
    shippedPolicy "event_stream" "0" "1.0" "2.0" "30.0" ++ rest

/-- The file as a text. -/
def shippedFile : Text := shippedLines.flatMap fun line => line ++ [.scalar '\n']

end EventStream.Config
