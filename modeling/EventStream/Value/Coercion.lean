import EventStream.Fault
import EventStream.Text.Numeral

/-
# Values read as numbers

Settings and events name numbers in whatever form their author chose: a number, a truth value or a
text. Two readings are defined, one as an integer and one as a double. Both accept blanks around
the digits, a sign, the digits of any script and single underscores between digits; a double is
cut toward zero when an integer is wanted. Each way in which a reading fails is a constructor of
`CoercionError`, so that the limits (too many digits, no finite value) are facts about the value
and not about a message.

A text is wanted of any value as well (`Value.asText`). The limit of the digits holds there too: an
integer that is too long cannot be written, wherever it stands in the value.
-/

namespace EventStream

/-- Why a value is no number of the wanted sort. -/
inductive CoercionError where
  | notInteger (shown : Text)
  | notDouble (shown : Text)
  | tooManyDigits (count : Nat)
  | integerOfKind (kind : Text)
  | doubleOfKind (kind : Text)
  | integerOfInfinity
  | integerOfNaN
  | doubleOfHuge
  | textOfLong
  deriving DecidableEq

/-- The kind of the fault that a failed reading raises. -/
def CoercionError.kind : CoercionError → FaultKind
  | .notInteger _ | .notDouble _ | .tooManyDigits _ | .integerOfNaN | .textOfLong => .value
  | .integerOfKind _ | .doubleOfKind _ => .type
  | .integerOfInfinity | .doubleOfHuge => .overflow

/-- The wording of a failed reading. -/
def CoercionError.message : CoercionError → Text
  | .notInteger shown =>
    Text.concat ["invalid literal for int() with base 10: ", shown]
  | .notDouble shown => Text.concat ["could not convert string to float: ", shown]
  | .tooManyDigits count =>
    Text.concat ["Exceeds the limit (4300 digits) for integer string conversion: value has ",
      Text.ofNat count, " digits; use sys.set_int_max_str_digits() to increase the limit"]
  | .integerOfKind kind =>
    Text.concat ["int() argument must be a string, a bytes-like object or a real number, not '",
      kind, "'"]
  | .doubleOfKind kind =>
    Text.concat ["float() argument must be a string or a real number, not '", kind, "'"]
  | .integerOfInfinity => "cannot convert float infinity to integer"
  | .integerOfNaN => "cannot convert float NaN to integer"
  | .doubleOfHuge => "int too large to convert to float"
  | .textOfLong =>
    Text.concat ["Exceeds the limit (4300 digits) for integer string conversion; ",
      "use sys.set_int_max_str_digits() to increase the limit"]

/-- A failed reading as a fault. -/
def CoercionError.toFault (e : CoercionError) : Fault := .raised e.kind e.message

namespace Numeral

/-- The most digits that a written integer may have. -/
def digitLimit : Nat := 4300

/-- Replace blanks by spaces and digits of any script by ASCII digits; other code points beyond
ASCII become one that no number contains. -/
def fold (t : Text) : List Char :=
  t.map fun c =>
    match c with
    | .surrogate _ => '?'
    | .scalar ch =>
      if ch.toNat < 128 then ch
      else if Text.isBlank c then ' '
      else match Text.digitValue? c with
        | some d => Nat.digitChar d
        | none => '?'

/-- Whether a folded character is a blank. -/
def isFoldedBlank (c : Char) : Bool := c = ' ' || ('\t' ≤ c && c ≤ '\r')

/-- A folded text without the blanks at both ends. -/
def trimmed (cs : List Char) : List Char :=
  ((cs.dropWhile isFoldedBlank).reverse.dropWhile isFoldedBlank).reverse

/-- The sign in front, where a plus sign may stand as well; what follows it. -/
def signed : List Char → Bool × List Char
  | '-' :: cs => (true, cs)
  | '+' :: cs => (false, cs)
  | cs => (false, cs)

/-- Read digits with single underscores between them: the digits, and what follows. An underscore
must have a digit on both sides. -/
def digitsWithUnderscores : List Char → List Char × List Char
  | c :: '_' :: d :: rest =>
    if c.isDigit && d.isDigit then
      let (ds, more) := digitsWithUnderscores (d :: rest)
      (c :: ds, more)
    else if c.isDigit then ([c], '_' :: d :: rest)
    else ([], c :: '_' :: d :: rest)
  | c :: rest =>
    if c.isDigit then
      let (ds, more) := digitsWithUnderscores rest
      (c :: ds, more)
    else ([], c :: rest)
  | [] => ([], [])

/-- The number that decimal digits name. -/
def natOfDigits (ds : List Char) : Nat :=
  ds.foldl (fun n c => n * 10 + (c.toNat - 48)) 0

/-- Read an integer from folded characters. A failure shows at most 200 code points of the value. -/
def readInt (shown : Text) (cs : List Char) : Except CoercionError Int :=
  let (negative, cs) := signed (trimmed cs)
  let (ds, rest) := digitsWithUnderscores cs
  if ds.isEmpty then .error (.notInteger (shown.take 200))
  else if digitLimit < ds.length then .error (.tooManyDigits ds.length)
  else if !rest.isEmpty then .error (.notInteger (shown.take 200))
  else
    let n : Int := natOfDigits ds
    .ok (if negative then -n else n)

/-- The exponent part at the head of the characters, zero if there is none. -/
def exponentPart (cs : List Char) : Option (Int × List Char) :=
  match cs with
  | e :: rest =>
    if e = 'e' || e = 'E' then
      let (negative, rest) := signed rest
      let (ds, rest) := digitsWithUnderscores rest
      if ds.isEmpty then none
      else
        let n : Int := natOfDigits ds
        some (if negative then -n else n, rest)
    else some (0, cs)
  | [] => some (0, [])

/-- Read an unsigned decimal: digits, perhaps a point with more digits, perhaps an exponent. -/
def readDecimal (cs : List Char) : Option Float :=
  let (whole, rest) := digitsWithUnderscores cs
  let (fraction, rest) :=
    match rest with
    | '.' :: more => digitsWithUnderscores more
    | _ => ([], rest)
  if whole.isEmpty && fraction.isEmpty then none
  else
    match exponentPart rest with
    | some (e, []) => some (Binary64.ofDecimal (natOfDigits (whole ++ fraction)) (e - fraction.length))
    | _ => none

/-- Read a double from folded characters. -/
def readFloat (shown : Text) (cs : List Char) : Except CoercionError Float :=
  let (negative, cs) := signed (trimmed cs)
  let word := cs.map Char.toLower
  let magnitude : Option Float :=
    if word = ['i', 'n', 'f'] || word = ['i', 'n', 'f', 'i', 'n', 'i', 't', 'y'] then
      some (1.0 / 0.0)
    else if word = ['n', 'a', 'n'] then some (0.0 / 0.0)
    else readDecimal cs
  match magnitude with
  | none => .error (.notDouble shown)
  | some x => .ok (if negative then -x else x)

/-- Bytes as folded characters; only ASCII has a meaning there. -/
def foldBytes (bytes : List UInt8) : List Char :=
  bytes.map fun b => if b < 128 then Char.ofNat b.toNat else '?'

end Numeral

namespace Value

/-- The value read as an integer. -/
def toInt : Value → Except CoercionError Int
  | .bool b => .ok (intOfBool b)
  | .int i => .ok i
  | .float x =>
    match Binary64.truncate? x with
    | some i => .ok i
    | none => .error (if x.isNaN then .integerOfNaN else .integerOfInfinity)
  | .text t => Numeral.readInt (Text.quoted t) (Numeral.fold t)
  | .bytes b => Numeral.readInt (Text.quotedBytes b) (Numeral.foldBytes b)
  | v => .error (.integerOfKind v.kindName)

/-- An integer as a double. -/
def floatOfInt (i : Int) : Except CoercionError Float :=
  match Binary64.ofInt? i with
  | some x => .ok x
  | none => .error .doubleOfHuge

/-- The value read as a double. -/
def toFloat : Value → Except CoercionError Float
  | .bool b => floatOfInt (intOfBool b)
  | .int i => floatOfInt i
  | .float x => .ok x
  | .text t => Numeral.readFloat (Text.quoted t) (Numeral.fold t)
  | .bytes b => Numeral.readFloat (Text.quotedBytes b) (Numeral.foldBytes b)
  | v => .error (.doubleOfKind v.kindName)

mutual

/-- Whether no integer in a value is too long to be written. -/
def isWritable : Value → Bool
  | .int i => (Nat.toDigits 10 i.natAbs).length ≤ Numeral.digitLimit
  | .list items => areWritable items
  | .table entries => entriesAreWritable entries
  | _ => true

/-- Whether all items of a list can be written. -/
def areWritable : List Value → Bool
  | [] => true
  | v :: rest => isWritable v && areWritable rest

/-- Whether all values of a table can be written. -/
def entriesAreWritable : List (Text × Value) → Bool
  | [] => true
  | (_, v) :: rest => isWritable v && entriesAreWritable rest

end

/-- The value as a text of its own, if it can be written. -/
def asText (v : Value) : Except CoercionError Text :=
  if v.isWritable then .ok v.toText else .error .textOfLong

end Value

end EventStream
