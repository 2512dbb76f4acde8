import EventStream.Value.Coercion
import EventStream.Value.Nesting

/-
# JSON documents

A document is read by recursive descent into a `Value`. Beyond the standard grammar the words
`NaN`, `Infinity` and `-Infinity` are numbers, and an escaped surrogate that has no partner stays
on its own. Integers have a largest number of digits, and tables and lists nest only to a largest
depth; both limits have errors of their own, because they say nothing against the grammar.

Every function answers what it read together with the text that follows. The recursion is bounded
by a number that starts above the length of the document, and every call that goes on has read at
least one code point, so the bound is never the reason for an error.
-/

namespace EventStream.Json

/-- What the grammar misses at a place of a document. -/
inductive Missing where
  | value
  | propertyName
  | colon
  | comma
  | ending
  | closingQuote
  | plainCharacter
  | escape
  | unicodeEscape
  | textWithoutMark
  deriving DecidableEq

/-- Why a text is no document. A place is given by the number of code points from there on. -/
inductive ParseError where
  | grammar (missing : Missing) (remaining : Nat)
  | number (e : CoercionError)
  | tooDeep (kind : Text)

/-- Whether a code point may stand between the parts of a document. -/
def isSpace (c : CodePoint) : Bool :=
  c = .scalar ' ' || c = .scalar '\t' || c = .scalar '\n' || c = .scalar '\r'

/-- The text after the spaces at its start. -/
def skipSpaces (t : Text) : Text := t.dropWhile isSpace

/-- The value of a hexadecimal digit. -/
def hexValue? (c : CodePoint) : Option Nat :=
  let n := c.toNat
  if 48 ≤ n ∧ n ≤ 57 then some (n - 48)
  else if 65 ≤ n ∧ n ≤ 70 then some (n - 55)
  else if 97 ≤ n ∧ n ≤ 102 then some (n - 87)
  else none

/-- The number of four hexadecimal digits. -/
def hexFour? (a b c d : CodePoint) : Option Nat := do
  return (((← hexValue? a) * 16 + (← hexValue? b)) * 16 + (← hexValue? c)) * 16 + (← hexValue? d)

/-- The code point with a number below U+10000. -/
def unit (n : Nat) : CodePoint := (CodePoint.ofNat? n).getD default

/-- The code point of a pair of surrogates. -/
def paired (high low : Nat) : CodePoint :=
  unit (0x10000 + (high - 0xD800) * 0x400 + (low - 0xDC00))

/-- What a letter stands for after a backslash. -/
def escaped? (c : CodePoint) : Option Char :=
  match c with
  | .scalar '"' => some '"'
  | .scalar '\\' => some '\\'
  | .scalar '/' => some '/'
  | .scalar 'b' => some '\x08'
  | .scalar 'f' => some '\x0c'
  | .scalar 'n' => some '\n'
  | .scalar 'r' => some '\r'
  | .scalar 't' => some '\t'
  | _ => none

/-- If an escaped low surrogate comes next: its number, and what follows it. -/
def lowEscape? (t : Text) : Option (Nat × Text) :=
  match t with
  | s :: u :: a :: b :: c :: d :: rest =>
    if s = .scalar '\\' && u = .scalar 'u' then
      match hexFour? a b c d with
      | some n => if 0xDC00 ≤ n && n < 0xE000 then some (n, rest) else none
      | none => none
    else none
  | _ => none

/-- Read the inside of a text up to its closing quote. -/
def textBody : (bound : Nat) → Text → Except ParseError (Text × Text)
  | 0, t => .error (.grammar .closingQuote t.length)
  | _ + 1, [] => .error (.grammar .closingQuote 0)
  | bound + 1, c :: t =>
    if c = .scalar '"' then .ok ([], t)
    else if c = .scalar '\\' then
      match t with
      | [] => .error (.grammar .closingQuote 0)
      | e :: rest =>
        if e = .scalar 'u' then
          match rest with
          | h₁ :: h₂ :: h₃ :: h₄ :: after =>
            -- an escape that nothing follows is at fault itself, not the quote that is missing
            match (if after.isEmpty then none else hexFour? h₁ h₂ h₃ h₄) with
            | none => .error (.grammar .unicodeEscape (rest.length + 1))
            | some n =>
              match (if 0xD800 ≤ n && n < 0xDC00 then lowEscape? after else none) with
              | some (low, more) =>
                (textBody bound more).map fun (body, end_) => (paired n low :: body, end_)
              | none => (textBody bound after).map fun (body, end_) => (unit n :: body, end_)
          | _ => .error (.grammar .unicodeEscape (rest.length + 1))
        else
          match escaped? e with
          | none => .error (.grammar .escape (rest.length + 2))
          | some x => (textBody bound rest).map fun (body, end_) => (.scalar x :: body, end_)
    else if c.toNat < 0x20 then .error (.grammar .plainCharacter (t.length + 1))
    else (textBody bound t).map fun (body, end_) => (c :: body, end_)

/-- Read a text whose opening quote has been read. One that is not closed is at fault as a whole. -/
def textValue (t : Text) : Except ParseError (Text × Text) :=
  match textBody (t.length + 1) t with
  | .error (.grammar .closingQuote _) => .error (.grammar .closingQuote (t.length + 1))
  | result => result

/-- Whether a code point is an ASCII digit. -/
def isDigit (c : CodePoint) : Bool := 48 ≤ c.toNat && c.toNat ≤ 57

/-- The characters of ASCII digits. -/
def digitChars (t : Text) : List Char := t.map fun c => Char.ofNat c.toNat

/-- The digits after a point, if a point with digits comes next; what follows them. -/
def fractionPart (t : Text) : Option Text × Text :=
  match t with
  | c :: rest =>
    let digits := rest.takeWhile isDigit
    if c = .scalar '.' && !digits.isEmpty then (some digits, rest.dropWhile isDigit) else (none, t)
  | [] => (none, [])

/-- The exponent, if an exponent part comes next; what follows it. -/
def exponentPart (t : Text) : Option Int × Text :=
  match t with
  | c :: rest =>
    if c = .scalar 'e' || c = .scalar 'E' then
      let (negative, digits) : Bool × Text :=
        match rest with
        | .scalar '-' :: more => (true, more)
        | .scalar '+' :: more => (false, more)
        | _ => (false, rest)
      let ds := digits.takeWhile isDigit
      if ds.isEmpty then (none, t)
      else
        let n : Int := Numeral.natOfDigits (digitChars ds)
        (some (if negative then -n else n), digits.dropWhile isDigit)
    else (none, t)
  | [] => (none, [])

/-- Read a number whose sign has been read. -/
def unsignedNumber (negative : Bool) (t : Text) : Except ParseError (Value × Text) :=
  let whole := t.takeWhile isDigit
  let whole := if whole.head? = some (.scalar '0') then whole.take 1 else whole
  let rest := t.drop whole.length
  if whole.isEmpty then
    .error (.grammar .value (t.length + if negative then 1 else 0))
  else
    let (fraction, rest) := fractionPart rest
    let (exponent, rest) := exponentPart rest
    if fraction.isNone && exponent.isNone then
      if Numeral.digitLimit < whole.length then .error (.number (.tooManyDigits whole.length))
      else
        let n : Int := Numeral.natOfDigits (digitChars whole)
        .ok (.int (if negative then -n else n), rest)
    else
      let fraction := fraction.getD []
      let digits := Numeral.natOfDigits (digitChars (whole ++ fraction))
      let x := Binary64.ofDecimal digits (exponent.getD 0 - fraction.length)
      .ok (.float (if negative then -x else x), rest)

/-- What follows a word, if the text starts with it. -/
def word? (word : String) (t : Text) : Option Text :=
  let w := Text.ofString word
  if w.isPrefixOf t then some (t.drop w.length) else none

/-- The words that are values. -/
def words : List (String × Value) :=
  [("null", .null), ("true", .bool true), ("false", .bool false), ("NaN", .float (0.0 / 0.0)),
    ("Infinity", .float (1.0 / 0.0)), ("-Infinity", .float (-1.0 / 0.0))]

/-- Read a value that is neither text, list nor table. -/
def scalarValue (t : Text) : Except ParseError (Value × Text) :=
  match words.findSome? fun (w, v) => (word? w t).map fun rest => (v, rest) with
  | some found => .ok found
  | none =>
    match t with
    | .scalar '-' :: rest => unsignedNumber true rest
    | _ => unsignedNumber false t

mutual

/-- Read a value; `depth` is the number of lists and tables that may still be opened. -/
def value : (bound depth : Nat) → Text → Except ParseError (Value × Text)
  | 0, _, t => .error (.grammar .value t.length)
  | bound + 1, depth, t =>
    match t with
    | [] => .error (.grammar .value 0)
    | c :: rest =>
      if c = .scalar '"' then
        (textValue rest).map fun (body, more) => (.text body, more)
      else if c = .scalar '[' then
        match depth with
        | 0 => .error (.tooDeep "array")
        | depth + 1 =>
          match skipSpaces rest with
          | .scalar ']' :: more => .ok (.list [], more)
          | more => (items bound depth more).map fun (vs, more) => (.list vs, more)
      else if c = .scalar '\x7b' then
        match depth with
        | 0 => .error (.tooDeep "object")
        | depth + 1 =>
          match skipSpaces rest with
          | .scalar '\x7d' :: more => .ok (.table [], more)
          | more => (entries bound depth more).map fun (es, more) => (.table (Table.ofEntries es), more)
      else scalarValue t

/-- Read the items of a list up to its closing bracket; there is at least one. -/
def items : (bound depth : Nat) → Text → Except ParseError (List Value × Text)
  | 0, _, t => .error (.grammar .value t.length)
  | bound + 1, depth, t => do
    let (v, rest) ← value bound depth t
    match skipSpaces rest with
    | .scalar ']' :: more => .ok ([v], more)
    | .scalar ',' :: more =>
      let (vs, more) ← items bound depth (skipSpaces more)
      .ok (v :: vs, more)
    | more => .error (.grammar .comma more.length)

/-- Read the entries of a table up to its closing brace; there is at least one. -/
def entries : (bound depth : Nat) → Text → Except ParseError (List (Text × Value) × Text)
  | 0, _, t => .error (.grammar .propertyName t.length)
  | bound + 1, depth, t =>
    match t with
    | .scalar '"' :: rest => do
      let (key, rest) ← textValue rest
      match skipSpaces rest with
      | .scalar ':' :: more => do
        let (v, rest) ← value bound depth (skipSpaces more)
        match skipSpaces rest with
        | .scalar '\x7d' :: more => .ok ([(key, v)], more)
        | .scalar ',' :: more =>
          let (es, more) ← entries bound depth (skipSpaces more)
          .ok ((key, v) :: es, more)
        | more => .error (.grammar .comma more.length)
      | more => .error (.grammar .colon more.length)
    | _ => .error (.grammar .propertyName t.length)

end

/-- Read a whole document. Each list and each table takes one call. -/
def parse (t : Text) : Except ParseError Value := do
  let start := skipSpaces t
  let (v, rest) ← value (2 * start.length + 2) callLimit start
  match skipSpaces rest with
  | [] => .ok v
  | more => .error (.grammar .ending more.length)

/-- What is missing, in words. -/
def Missing.message : Missing → Text
  | .value => "Expecting value"
  | .propertyName => "Expecting property name enclosed in double quotes"
  | .colon => "Expecting ':' delimiter"
  | .comma => "Expecting ',' delimiter"
  | .ending => "Extra data"
  | .closingQuote => "Unterminated string starting at"
  | .plainCharacter => "Invalid control character at"
  | .escape => "Invalid \\escape"
  | .unicodeEscape => "Invalid \\uXXXX escape"
  | .textWithoutMark => "Unexpected UTF-8 BOM (decode using utf-8-sig)"

/-- A place of a document as line, column and number. -/
def shownPlace (document : Text) (position : Nat) : Text :=
  let before := document.take position
  let line := (before.filter (· = .scalar '\n')).length + 1
  let column := (before.reverse.takeWhile (· ≠ .scalar '\n')).length + 1
  Text.concat ["line ", Text.ofNat line, " column ", Text.ofNat column, " (char ",
    Text.ofNat position, ")"]

/-- The wording of an error about a document. -/
def ParseError.message (document : Text) : ParseError → Text
  | .grammar missing remaining =>
    Text.concat [missing.message, ": ", shownPlace document (document.length - remaining)]
  | .number e => e.message
  | .tooDeep kind =>
    Text.concat ["maximum recursion depth exceeded while decoding a JSON ", kind,
      " from a unicode string"]

end EventStream.Json
