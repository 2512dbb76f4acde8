import EventStream.Toml.Error
import EventStream.Json.Parser

/-
# Texts in settings files

A text stands between quotes or between apostrophes. Between quotes a backslash starts an escape;
between apostrophes everything stands for itself. Three of either begin a text that may run over
several lines: a line feed right after them is skipped, up to two of them may stand before the
three that end the text, and between quotes a backslash at the end of a line skips the blanks and
line feeds that follow.
-/

namespace EventStream.Toml

/-- The quote. -/
abbrev quote : CodePoint := .scalar '"'

/-- The apostrophe. -/
abbrev apostrophe : CodePoint := .scalar '\''

/-- What a letter stands for after a backslash. -/
def escaped? (c : CodePoint) : Option Char :=
  match c with
  | .scalar 'b' => some '\x08'
  | .scalar 't' => some '\t'
  | .scalar 'n' => some '\n'
  | .scalar 'f' => some '\x0c'
  | .scalar 'r' => some '\r'
  | .scalar '"' => some '"'
  | .scalar '\\' => some '\\'
  | _ => none

/-- The scalar value with a number of `width` hexadecimal digits. -/
def hexEscape (width : Nat) (t : Text) : Read CodePoint :=
  let digits := t.take width
  match digits.mapM Json.hexValue? with
  | none => .error .malformed
  | some ds =>
    let n := ds.foldl (fun n d => n * 16 + d) 0
    match CodePoint.ofNat? n with
    | some (.scalar c) => if ds.length = width then .ok (.scalar c, t.drop width) else .error .malformed
    | _ => .error .malformed

/-- After a backslash at the end of a line: the text after the blanks and line feeds that are
skipped. Something else before the line feed is a mistake; the end of the file is not. -/
def skipLineEnd (t : Text) : Except Error Text :=
  match skipSpaces t with
  | [] => .ok []
  | .scalar '\n' :: rest => .ok (rest.dropWhile fun c => isSpace c || c = .scalar '\n')
  | _ => .error .malformed

/-- The inside of a text between quotes, up to the quotes that end it. -/
def quotedBody (manyLines : Bool) : (bound : Nat) → Text → Except Error (Text × Text)
  | 0, _ => .error .malformed
  | bound + 1, t =>
    match t with
    | [] => .error .malformed
    | c :: rest =>
      if c = quote then
        if !manyLines then .ok ([], rest)
        else match rest with
          | .scalar '"' :: .scalar '"' :: more => .ok ([], more)
          | _ => (quotedBody manyLines bound rest).map fun (body, more) => (quote :: body, more)
      else if c = .scalar '\\' then
        match rest with
        | [] => .error .malformed
        | e :: after =>
          if manyLines && (isSpace e || e = .scalar '\n') then do
            quotedBody manyLines bound (← skipLineEnd rest)
          else if e = .scalar 'u' || e = .scalar 'U' then do
            let (c, after) ← hexEscape (if e = .scalar 'u' then 4 else 8) after
            let (body, more) ← quotedBody manyLines bound after
            .ok (c :: body, more)
          else match escaped? e with
            | none => .error .malformed
            | some x => (quotedBody manyLines bound after).map fun (body, more) => (x :: body, more)
      else if isIllegal c && !(manyLines && c = .scalar '\n') then .error .malformed
      else (quotedBody manyLines bound rest).map fun (body, more) => (c :: body, more)

/-- The inside of a text between apostrophes on one line. -/
def plainLine (t : Text) : Read Text :=
  let body := t.takeWhile (· ≠ apostrophe)
  if body.any isIllegal then .error .malformed
  else match t.drop body.length with
    | [] => .error .malformed
    | _ :: rest => .ok (body, rest)

/-- The inside of a text between triple apostrophes. -/
def plainLines : Text → Read Text
  | .scalar '\'' :: .scalar '\'' :: .scalar '\'' :: rest => .ok ([], rest)
  | c :: rest =>
    if isIllegal c && c ≠ .scalar '\n' then .error .malformed
    else (plainLines rest).map fun (body, more) => (c :: body, more)
  | [] => .error .malformed

/-- Up to two further quotes belong to a text that three of them ended. -/
def trailing (mark : CodePoint) (body t : Text) : Text × Text :=
  let extra := (t.takeWhile (· = mark)).take 2
  (body ++ extra, t.drop extra.length)

/-- The text after one line feed at its start. -/
def skipLineFeed (t : Text) : Text := if t.head? = some (.scalar '\n') then t.tail else t

/-- Read a text whose first mark is still there. -/
def literal (t : Text) : Read Text :=
  match t with
  | .scalar '"' :: .scalar '"' :: .scalar '"' :: rest =>
    (quotedBody true (rest.length + 1) (skipLineFeed rest)).map fun (b, more) => trailing quote b more
  | .scalar '"' :: rest => quotedBody false (rest.length + 1) rest
  | .scalar '\'' :: .scalar '\'' :: .scalar '\'' :: rest =>
    (plainLines (skipLineFeed rest)).map fun (b, more) => trailing apostrophe b more
  | .scalar '\'' :: rest => plainLine rest
  | _ => .error .malformed

/-- Read a text on one line, as it may stand for a key. -/
def lineLiteral (t : Text) : Read Text :=
  match t with
  | .scalar '"' :: rest => quotedBody false (rest.length + 1) rest
  | .scalar '\'' :: rest => plainLine rest
  | _ => .error .malformed

end EventStream.Toml
