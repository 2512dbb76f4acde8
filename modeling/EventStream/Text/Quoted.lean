import EventStream.Text.Printable

/-
# Quoted texts and bytes

Messages show a text or a byte string between quotes. Single quotes are used, unless the content
holds a single quote and no double quote. The quote in use and the backslash are escaped with a
backslash, line feed, carriage return and tab have their letters, and what is not printable is
shown by its number in lower-case hexadecimal: two digits, else four, else eight. Bytes are shown
as ASCII where they are printable ASCII, with a leading `b`.
-/

namespace EventStream.Text

/-- The last `width` digits of a number in lower-case hexadecimal. -/
def hex (width n : Nat) : Text :=
  let digits := Nat.toDigits 16 n
  ofChars (List.replicate (width - digits.length) '0' ++ digits)

/-- The quote that stands around a content with the given code points. -/
def quoteFor (t : Text) : CodePoint :=
  if t.contains '\'' && !t.contains '"' then '"' else '\''

/-- A code point shown by its number. -/
def escapeNumber (n : Nat) : Text :=
  if n < 0x100 then concat ["\\x", hex 2 n]
  else if n < 0x10000 then concat ["\\u", hex 4 n]
  else concat ["\\U", hex 8 n]

/-- A code point as it stands between quotes. -/
def quoteOne (quote c : CodePoint) : Text :=
  if c = quote || c = .scalar '\\' then ['\\', c]
  else if c = .scalar '\n' then "\\n"
  else if c = .scalar '\r' then "\\r"
  else if c = .scalar '\t' then "\\t"
  else if isPrintable c then [c]
  else escapeNumber c.toNat

/-- A text between quotes. -/
def quoted (t : Text) : Text :=
  let quote := quoteFor t
  quote :: t.flatMap (quoteOne quote) ++ [quote]

/-- Bytes between quotes. -/
def quotedBytes (bytes : List UInt8) : Text :=
  let t : Text := bytes.map fun b => .scalar (Char.ofNat b.toNat)
  let quote := quoteFor t
  let one (c : CodePoint) : Text :=
    if c.toNat < 0x80 then quoteOne quote c else escapeNumber c.toNat
  .scalar 'b' :: quote :: t.flatMap one ++ [quote]

/-- A list of texts, each quoted, between brackets. -/
def quotedList (ts : List Text) : Text :=
  concat ["[", join ", " (ts.map quoted), "]"]

end EventStream.Text
