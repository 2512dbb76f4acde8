import EventStream.Text.Utf8
import EventStream.Text.Wide
import EventStream.Text.Quoted
import EventStream.Fault

/-
# The encoding of a binary document

A document that arrives as bytes is UTF-8, UTF-16 or UTF-32. A byte order mark decides; without
one the first two characters of a document are ASCII, so the places of the zero bytes among the
first four bytes tell the width and the order. The mark of UTF-8 is no part of the text.
-/

namespace EventStream.Json

/-- How the text of a document is encoded. -/
inductive Encoding where
  | utf8
  | utf16 (order : Wide.Endian)
  | utf32 (order : Wide.Endian)
  deriving DecidableEq

/-- The marks that a document may begin with. That of UTF-16 is also the beginning of one of UTF-32,
so the first one that fits decides. -/
def marks : List (List UInt8 × Encoding) :=
  [([0x00, 0x00, 0xFE, 0xFF], .utf32 .big), ([0xFF, 0xFE, 0x00, 0x00], .utf32 .little),
    ([0xFE, 0xFF], .utf16 .big), ([0xFF, 0xFE], .utf16 .little), ([0xEF, 0xBB, 0xBF], .utf8)]

/-- The encoding of a document without a mark. -/
def unmarked (bytes : List UInt8) : Encoding :=
  match bytes with
  | a :: b :: c :: d :: _ =>
    if a = 0 then (if b = 0 then .utf32 .big else .utf16 .big)
    else if b = 0 then (if c = 0 && d = 0 then .utf32 .little else .utf16 .little)
    else .utf8
  | [a, b] =>
    if a = 0 then .utf16 .big
    else if b = 0 then .utf16 .little
    else .utf8
  | _ => .utf8

/-- The encoding of a document, and the number of bytes of its mark. -/
def detect (bytes : List UInt8) : Encoding × Nat :=
  match marks.find? fun m => m.1.isPrefixOf bytes with
  | some (mark, encoding) => (encoding, mark.length)
  | none => (unmarked bytes, 0)

/-- Why the bytes of a document are no text. -/
inductive EncodingError where
  | utf8 (e : Utf8.DecodeError)
  | wide (encoding : Encoding) (e : Wide.DecodeError)

/-- The text of a binary document. -/
def decodeBytes (bytes : List UInt8) : Except EncodingError Text :=
  match detect bytes with
  | (.utf8, mark) =>
    match Utf8.decodeLenient (bytes.drop mark) with
    | .ok t => .ok t
    | .error e => .error (.utf8 e)
  | (.utf16 order, mark) =>
    match Wide.decode16 order mark (bytes.drop mark) with
    | .ok t => .ok t
    | .error e => .error (.wide (.utf16 order) e)
  | (.utf32 order, mark) =>
    match Wide.decode32 order mark (bytes.drop mark) with
    | .ok t => .ok t
    | .error e => .error (.wide (.utf32 order) e)

/-- The wording shared by all encodings: the bytes at fault and the reason. -/
def cannotDecode (encoding : Text) (position length : Nat) (first : UInt8) (reason : Text) : Text :=
  let place :=
    if length = 1 then
      Text.concat ["byte 0x", Text.hex 2 first.toNat, " in position ", Text.ofNat position]
    else
      Text.concat ["bytes in position ", Text.ofNat position, "-",
        Text.ofNat (position + length - 1)]
  Text.concat ["'", encoding, "' codec can't decode ", place, ": ", reason]

/-- The name of an encoding. -/
def Encoding.name : Encoding → Text
  | .utf8 => "utf-8"
  | .utf16 .little => "utf-16-le"
  | .utf16 .big => "utf-16-be"
  | .utf32 .little => "utf-32-le"
  | .utf32 .big => "utf-32-be"

/-- The wording of a flaw in wide code units. -/
def wideMessage (encoding : Encoding) (e : Wide.DecodeError) : Text :=
  let reason : Text := match e.flaw with
    | .truncated => "truncated data"
    | .outOfRange => "code point not in range(0x110000)"
  cannotDecode encoding.name e.position e.bytes.length (e.bytes.headD 0) reason

end EventStream.Json

namespace EventStream

/-- The wording of a flaw in UTF-8. -/
def Utf8.DecodeError.message (e : Utf8.DecodeError) : Text :=
  let reason : Text := match e.flaw with
    | .start => "invalid start byte"
    | .continuation _ => "invalid continuation byte"
    | .truncated _ => "unexpected end of data"
  Json.cannotDecode "utf-8" e.position e.flaw.length e.byte reason

/-- The wording of a binary document that is no text. -/
def Json.EncodingError.message : Json.EncodingError → Text
  | .utf8 e => e.message
  | .wide encoding e => Json.wideMessage encoding e

/-- The wording of a text that has no UTF-8 form. -/
def Utf8.EncodeError.message (e : Utf8.EncodeError) : Text :=
  let place :=
    if e.length = 1 then
      Text.concat ["character '", Text.escapeNumber e.first.toNat, "' in position ",
        Text.ofNat e.position]
    else
      Text.concat ["characters in position ", Text.ofNat e.position, "-",
        Text.ofNat (e.position + e.length - 1)]
  Text.concat ["'utf-8' codec can't encode ", place, ": surrogates not allowed"]

/-- A text without UTF-8 form as a fault. -/
def Utf8.EncodeError.toFault (e : Utf8.EncodeError) : Fault := .raised .encoding e.message

/-- Bytes that are not UTF-8 as a fault. -/
def Utf8.DecodeError.toFault (e : Utf8.DecodeError) : Fault := .raised .decoding e.message

end EventStream
