import EventStream.Text.Utf8
import EventStream.Text.Wide

/-
# Text in pieces of bytes

The body of a response arrives in pieces of bytes, and a code point may be cut between two pieces.
A `Reader` keeps the bytes of a code point that is not complete yet, writes U+FFFD for bytes that
are no text, and at the end of the body also for a code point that was never completed.

Which bytes stand for which text is named by the content type; UTF-8 is read where it names nothing
that is known. A charset whose byte order is open until a mark decides it cannot be read without
that mark: that is the one case in which a reader refuses.
-/

namespace EventStream

/-- A way to write text as bytes. -/
inductive Charset where
  | utf8
  /-- UTF-8 that may start with a mark, which is no part of the text. -/
  | utf8Marked
  /-- UTF-16 in a byte order, or in the one that a mark tells. -/
  | utf16 (order : Option Wide.Endian)
  /-- UTF-32 in a byte order, or in the one that a mark tells. -/
  | utf32 (order : Option Wide.Endian)
  | latin1
  | latin9
  | windows1252
  | ascii
  deriving DecidableEq

namespace Charset

/-- The charsets and the names under which each is known. -/
def names : List (Charset × List Text) := [
  (.utf8, ["utf-8", "utf8", "u8", "utf", "utf8-ucs2", "utf8-ucs4", "cp65001"]),
  (.utf8Marked, ["utf-8-sig"]),
  (.utf16 none, ["utf-16", "utf16", "u16"]),
  (.utf16 (some .little), ["utf-16-le", "utf-16le", "unicodelittleunmarked"]),
  (.utf16 (some .big), ["utf-16-be", "utf-16be", "unicodebigunmarked"]),
  (.utf32 none, ["utf-32", "utf32", "u32"]),
  (.utf32 (some .little), ["utf-32-le", "utf-32le"]),
  (.utf32 (some .big), ["utf-32-be", "utf-32be"]),
  (.latin1, ["latin-1", "latin1", "latin", "l1", "iso-8859-1", "iso8859-1", "iso8859", "8859", "cp819",
    "csisolatin1", "ibm819", "iso-8859-1-1987", "iso-ir-100"]),
  (.latin9, ["iso8859-15", "iso-8859-15", "l9", "latin9"]),
  (.windows1252, ["cp1252", "1252", "windows-1252"]),
  (.ascii, ["ascii", "us-ascii", "us", "646", "ansi-x3.4-1968", "ansi-x3.4-1986", "ansi-x3-4-1968",
    "cp367", "csascii", "ibm367", "iso646-us", "iso-646.irv-1991", "iso-ir-6"])]

/-- Whether a code point counts in the name of a charset. -/
def isNamed : CodePoint → Bool
  | .scalar c => c.isAlphanum || c = '.'
  | .surrogate _ => false

/-- A name in lower case, with one hyphen for everything else that stands between two parts of it;
quotes around the name do not count either. -/
def fold (name : Text) : Text :=
  let spaced := (Text.toLowerAscii name).map fun c => if isNamed c then c else .scalar '-'
  Text.join "-" ((Text.split (.scalar '-') spaced).filter (!·.isEmpty))

/-- The charset of a name. -/
def ofName? (name : Text) : Option Charset :=
  if name.isAscii then (names.find? fun entry => entry.2.contains (fold name)).map (·.1) else none

/-- The pieces of a content type between its semicolons, apart from those inside quotes. -/
def parameters : Bool → Text → List Text
  | _, [] => [[]]
  | quoted, c :: t =>
    if c = .scalar ';' && !quoted then [] :: parameters false t
    else match parameters (quoted != (c = .scalar '"')) t with
      | [] => [[c]]
      | piece :: pieces => (c :: piece) :: pieces

/-- The value of a parameter of a content type. -/
def parameter? (name : Text) (contentType : Text) : Option Text :=
  (parameters false contentType).findSome? fun part =>
    let (key, value) := Text.cut (.scalar '=') part
    if Text.toLowerAscii (Text.trim (· = .scalar ' ') key) = name then some (value.getD []) else none

/-- The charset of a content type. -/
def ofContentType (contentType : Text) : Charset :=
  ((parameter? "charset" contentType).bind ofName?).getD .utf8

/-- The code point whose number is the byte. -/
def sameNumber (b : UInt8) : CodePoint := .scalar (Char.ofNat b.toNat)

/-- One byte of an ASCII text. -/
def ofAscii (b : UInt8) : CodePoint := if b < 128 then sameNumber b else Wide.replacement

/-- The bytes of Latin-9 that differ from Latin-1. -/
def latin9Table : List (UInt8 × Char) := [
  (0xA4, '€'), (0xA6, 'Š'), (0xA8, 'š'), (0xB4, 'Ž'), (0xB8, 'ž'), (0xBC, 'Œ'), (0xBD, 'œ'),
  (0xBE, 'Ÿ')]

/-- One byte of a Latin-9 text. -/
def ofLatin9 (b : UInt8) : CodePoint :=
  match latin9Table.lookup b with
  | some c => .scalar c
  | none => sameNumber b

/-- The bytes from 0x80 to 0x9F of Windows-1252; five of them stand for nothing. -/
def windows1252Table : List Char := [
  '€', '\uFFFD', '‚', 'ƒ', '„', '…', '†', '‡', 'ˆ', '‰', 'Š', '‹', 'Œ', '\uFFFD', 'Ž', '\uFFFD',
  '\uFFFD', '‘', '’', '“', '”', '•', '–', '—', '˜', '™', 'š', '›', 'œ', '\uFFFD', 'ž', 'Ÿ']

/-- One byte of a Windows-1252 text. -/
def ofWindows1252 (b : UInt8) : CodePoint :=
  if b < 0x80 then sameNumber b
  else match windows1252Table[b.toNat - 0x80]? with
    | some c => .scalar c
    | none => sameNumber b

/-- What a reader makes of the bytes at hand: the text, the bytes that it keeps, and the charset in
which it goes on. -/
abbrev Reading := Text × List UInt8 × Charset

/-- A reading after which the same charset is read. -/
def goOn (c : Charset) (reading : Text × List UInt8) : Reading := (reading.1, reading.2, c)

/-- Read UTF-8 that may start with a mark. As long as the bytes at hand may become the mark, they
are no text. -/
def readMarked (last : Bool) (bytes : List UInt8) : Reading :=
  match bytes with
  | [] | [0xEF] | [0xEF, 0xBB] => ([], bytes, .utf8Marked)
  | 0xEF :: 0xBB :: 0xBF :: rest => goOn .utf8 (Utf8.replace last rest)
  | _ => goOn .utf8 (Utf8.replace last bytes)

/-- Keep a reading only if it is of less than a code unit: no mark tells the byte order. -/
def unmarked (c : Charset) (width : Nat) (bytes : List UInt8) (reading : Text × List UInt8) :
    Option Reading :=
  if bytes.length < reading.2.length + width then some (goOn c reading) else none

/-- Read UTF-16 whose byte order a mark tells. -/
def read16 (last : Bool) (bytes : List UInt8) : Option Reading :=
  match bytes with
  | 0xFF :: 0xFE :: rest => some (goOn (.utf16 (some .little)) (Wide.replace16 .little last rest))
  | 0xFE :: 0xFF :: rest => some (goOn (.utf16 (some .big)) (Wide.replace16 .big last rest))
  | _ => unmarked (.utf16 none) 2 bytes (Wide.replace16 .little last bytes)

/-- Read UTF-32 whose byte order a mark tells. -/
def read32 (last : Bool) (bytes : List UInt8) : Option Reading :=
  match bytes with
  | 0xFF :: 0xFE :: 0x00 :: 0x00 :: rest =>
    some (goOn (.utf32 (some .little)) (Wide.replace32 .little last rest))
  | 0x00 :: 0x00 :: 0xFE :: 0xFF :: rest =>
    some (goOn (.utf32 (some .big)) (Wide.replace32 .big last rest))
  | _ => unmarked (.utf32 none) 4 bytes (Wide.replace32 .little last bytes)

/-- Read as much as possible. With `last` there is no next piece. -/
def read (c : Charset) (last : Bool) (bytes : List UInt8) : Option Reading :=
  match c with
  | .utf8 => some (goOn c (Utf8.replace last bytes))
  | .utf8Marked => some (readMarked last bytes)
  | .utf16 (some order) => some (goOn c (Wide.replace16 order last bytes))
  | .utf16 none => read16 last bytes
  | .utf32 (some order) => some (goOn c (Wide.replace32 order last bytes))
  | .utf32 none => read32 last bytes
  | .latin1 => some (goOn c (bytes.map sameNumber, []))
  | .latin9 => some (goOn c (bytes.map ofLatin9, []))
  | .windows1252 => some (goOn c (bytes.map ofWindows1252, []))
  | .ascii => some (goOn c (bytes.map ofAscii, []))

/-- A reader of pieces: the charset and the bytes of a code point that is not complete yet. -/
structure Reader where
  charset : Charset := .utf8
  kept : List UInt8 := []

/-- Keep a piece without reading it. -/
def Reader.keep (r : Reader) (piece : List UInt8) : Reader := { r with kept := r.kept ++ piece }

/-- Read a piece, or refuse. -/
def Reader.next? (r : Reader) (piece : List UInt8) : Option (Text × Reader) :=
  (r.charset.read false (r.kept ++ piece)).map fun (text, kept, charset) => (text, ⟨charset, kept⟩)

/-- Read what was kept when there is no next piece, or refuse. -/
def Reader.rest? (r : Reader) : Option Text := (r.charset.read true r.kept).map (·.1)

end Charset

end EventStream
