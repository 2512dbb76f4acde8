import EventStream.Toml.Document
import EventStream.Toml.Literal
import EventStream.Toml.Scalar
import EventStream.Value.Nesting

/-
# Settings files

A settings file is a sequence of lines: headers, keys with values, comments and blank lines. The
reader goes through the lines with a document that grows (`Toml.Document`). Values are read by
recursive descent; as for JSON the recursion is bounded by a number above the length of the text,
and each call that goes on has read something.

The calls that nest are counted apart from that. A value takes one, its items take another one, and
the entries of an inline table take two; a value for which none is left is too deep. Headers and
dotted keys reach as deep as they like, since they are read without nesting.
-/

namespace EventStream.Toml

/-- Whether a code point may stand in a key without quotes. -/
def isBare (c : CodePoint) : Bool :=
  let n := c.toNat
  isDigit c || (65 ≤ n && n ≤ 90) || (97 ≤ n && n ≤ 122) || n = 45 || n = 95

/-- Read one part of a key. -/
def keyPart (t : Text) : Read Text :=
  let bare := t.takeWhile isBare
  if bare.isEmpty then lineLiteral t else .ok (bare, t.drop bare.length)

/-- Read a key: parts with points between them, and the spaces after it. -/
def keyPath : (bound : Nat) → Text → Except Error (Path × Text)
  | 0, _ => .error .malformed
  | bound + 1, t => do
    let (part, rest) ← keyPart t
    match skipSpaces rest with
    | .scalar '.' :: more =>
      let (parts, rest) ← keyPath bound (skipSpaces more)
      .ok (part :: parts, rest)
    | rest => .ok ([part], rest)

/-- The text after an equals sign and spaces. -/
def expectEquals (t : Text) : Except Error Text :=
  match t with
  | .scalar '=' :: rest => .ok (skipSpaces rest)
  | _ => .error .malformed

mutual

/-- Read a value; `calls` is the number of calls that may still nest. -/
def value : (bound calls : Nat) → Text → Except Error (Value × Text)
  | 0, _, _ => .error .malformed
  | _ + 1, 0, _ => .error .tooDeep
  | bound + 1, calls + 1, t =>
    match t with
    | [] => .error .malformed
    | c :: rest =>
      if c = quote || c = apostrophe then (literal t).map fun (body, more) => (.text body, more)
      else if c = .scalar '[' then do
        match ← skipLines (rest.length + 1) rest with
        | .scalar ']' :: more => .ok (.list [], more)
        | more =>
          let (items, rest) ← items bound (calls - 1) more
          .ok (.list items, rest)
      else if c = .scalar '\x7b' then
        match skipSpaces rest with
        | .scalar '\x7d' :: more => .ok (.table [], more)
        | more => (inlineEntries bound (calls - 2) [] [] more).map fun (t, rest) => (.table t, rest)
      else scalarValue t

/-- Read the items of a list up to its closing bracket; there is at least one. -/
def items : (bound calls : Nat) → Text → Except Error (List Value × Text)
  | 0, _, _ => .error .malformed
  | bound + 1, calls, t => do
    let (v, rest) ← value bound calls t
    match ← skipLines (rest.length + 1) rest with
    | .scalar ']' :: more => .ok ([v], more)
    | .scalar ',' :: more =>
      match ← skipLines (more.length + 1) more with
      | .scalar ']' :: more => .ok ([v], more)
      | more =>
        let (vs, more) ← items bound calls more
        .ok (v :: vs, more)
    | _ => .error .malformed

/-- Read the entries of an inline table up to its closing brace; there is at least one. The places
in `closed` hold values that later keys must not reach into. -/
def inlineEntries : (bound calls : Nat) → (closed : List Path) → Table → Text →
    Except Error (Table × Text)
  | 0, _, _, _, _ => .error .malformed
  | bound + 1, calls, closed, t, text => do
    let (key, rest) ← keyPath (text.length + 1) text
    let (v, rest) ← value bound calls (← expectEquals rest)
    if closed.any (·.isPrefixOf key) then .error .malformed
    match insertInline v key t with
    | none => .error .malformed
    | some t =>
      match skipSpaces rest with
      | .scalar '\x7d' :: more => .ok (t, more)
      | .scalar ',' :: more =>
        let closed := match v with
          | .table _ | .list _ => key :: closed
          | _ => closed
        inlineEntries bound calls closed t (skipSpaces more)
      | _ => .error .malformed

end

/-- Read a header: the document with its table opened, the path, and the text that follows. -/
def header (d : Document) (t : Text) : Except Error (Document × Path × Text) :=
  match t with
  | .scalar '[' :: .scalar '[' :: rest => do
    let (path, rest) ← keyPath (rest.length + 1) (skipSpaces rest)
    let d ← d.openItem path
    match rest with
    | .scalar ']' :: .scalar ']' :: more => .ok (d, path, more)
    | _ => .error .malformed
  | .scalar '[' :: rest => do
    let (path, rest) ← keyPath (rest.length + 1) (skipSpaces rest)
    let d ← d.openTable path
    match rest with
    | .scalar ']' :: more => .ok (d, path, more)
    | _ => .error .malformed
  | _ => .error .malformed

/-- Read a key with its value into the table of a header. -/
def definition (d : Document) (path : Path) (t : Text) : Except Error (Document × Text) := do
  let (key, rest) ← keyPath (t.length + 1) t
  let (v, rest) ← value (2 * rest.length + 2) callLimit (← expectEquals rest)
  .ok (← d.define path key v, rest)

/-- The text after a comment and the line feed that must end a line. -/
def endLine (t : Text) : Except Error Text := do
  match ← skipComment (skipSpaces t) with
  | [] => .ok []
  | .scalar '\n' :: rest => .ok rest
  | _ => .error .malformed

/-- Read line after line; `path` is the table of the last header. -/
def lines : (bound : Nat) → Document → Path → Text → Except Error Document
  | 0, d, _, _ => .ok d
  | bound + 1, d, path, t =>
    match skipSpaces t with
    | [] => .ok d
    | c :: rest => do
      if c = .scalar '\n' then lines bound d path rest
      else if c = .scalar '[' then
        let (d, path, rest) ← header d (c :: rest)
        lines bound d path (← endLine rest)
      else if c = .scalar '#' then
        lines bound d path (← endLine (c :: rest))
      else if isBare c || c = quote || c = apostrophe then
        let (d, rest) ← definition d path (c :: rest)
        lines bound d path (← endLine rest)
      else .error .malformed

/-- Write every CRLF as a line feed. -/
def unifyLines : Text → Text
  | .scalar '\r' :: .scalar '\n' :: t => .scalar '\n' :: unifyLines t
  | c :: t => c :: unifyLines t
  | [] => []

/-- Read a settings file. -/
def parse (t : Text) : Except Error Table :=
  let t := unifyLines t
  (lines (t.length + 1) {} [] t).map (·.root)

end EventStream.Toml
