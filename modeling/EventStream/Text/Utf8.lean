import EventStream.Text.Basic

/-
# UTF-8

Writing and reading of texts as UTF-8. Reading looks at one code point at a time (`Utf8.scan`):
it answers the code point and how many bytes follow the leading one, or says why the bytes at hand
are the beginning of no code point. Everything that reads UTF-8 here is a loop over that one
function: the strict reader refuses at the first flaw, the lenient reader accepts surrogates that
were written as three bytes, and the replacing reader of streamed bodies puts U+FFFD in the place
of every flaw.

A strict reader accepts no overlong form, no surrogate and nothing above U+10FFFF, because the
second byte is checked against the range that its leading byte leaves open.
-/

namespace EventStream.Utf8

/-- Why bytes are the beginning of no code point. The number counts the bytes at fault. -/
inductive Flaw where
  | start
  | continuation (length : Nat)
  | truncated (length : Nat)
  deriving DecidableEq

/-- The number of bytes that a flaw covers. -/
def Flaw.length : Flaw → Nat
  | .start => 1
  | .continuation n => n
  | .truncated n => n

/-- The bytes of one code point. A surrogate is written as if it were a scalar value. -/
def encodeOne (c : CodePoint) : List UInt8 :=
  let n := c.toNat
  if n < 0x80 then [n.toUInt8]
  else if n < 0x800 then [(0xC0 + n / 64).toUInt8, (0x80 + n % 64).toUInt8]
  else if n < 0x10000 then
    [(0xE0 + n / 4096).toUInt8, (0x80 + n / 64 % 64).toUInt8, (0x80 + n % 64).toUInt8]
  else
    [(0xF0 + n / 262144).toUInt8, (0x80 + n / 4096 % 64).toUInt8, (0x80 + n / 64 % 64).toUInt8,
      (0x80 + n % 64).toUInt8]

/-- Whether a byte continues a code point. -/
def isContinuation (b : UInt8) : Bool := 0x80 ≤ b && b < 0xC0

/-- Whether a byte may be the second one after a leading byte of three or four. -/
def isSecond (lead second : UInt8) : Bool :=
  isContinuation second &&
    !(lead = 0xE0 && second < 0xA0) && !(lead = 0xED && 0xA0 ≤ second) &&
    !(lead = 0xF0 && second < 0x90) && !(lead = 0xF4 && 0x90 ≤ second)

/-- The code point with a number, or U+FFFD where there is none; the numbers that the reader
puts together always have one. -/
def codePoint (n : Nat) : CodePoint := (CodePoint.ofNat? n).getD (.scalar '\uFFFD')

/-- The six bits that a continuation byte carries. -/
def bits (b : UInt8) : Nat := b.toNat % 64

/-- Read the code point that starts with `lead`: the code point and how many of the bytes that
follow belong to it. -/
def scan (lead : UInt8) (rest : List UInt8) : Except Flaw (CodePoint × Nat) :=
  let n := lead.toNat
  if n < 0x80 then .ok (codePoint n, 0)
  else if n < 0xC2 then .error .start
  else if n < 0xE0 then
    match rest with
    | [] => .error (.truncated 1)
    | b :: _ =>
      if isContinuation b then .ok (codePoint ((n - 0xC0) * 64 + bits b), 1)
      else .error (.continuation 1)
  else if n < 0xF0 then
    match rest with
    | [] => .error (.truncated 1)
    | [b] => .error (if isSecond lead b then .truncated 2 else .continuation 1)
    | b :: c :: _ =>
      if !isSecond lead b then .error (.continuation 1)
      else if isContinuation c then
        .ok (codePoint ((n - 0xE0) * 4096 + bits b * 64 + bits c), 2)
      else .error (.continuation 2)
  else if n < 0xF5 then
    match rest with
    | [] => .error (.truncated 1)
    | [b] => .error (if isSecond lead b then .truncated 2 else .continuation 1)
    | [b, c] =>
      .error <|
        if !isSecond lead b then .continuation 1
        else if isContinuation c then .truncated 3
        else .continuation 2
    | b :: c :: d :: _ =>
      if !isSecond lead b then .error (.continuation 1)
      else if !isContinuation c then .error (.continuation 2)
      else if isContinuation d then
        .ok (codePoint ((n - 0xF0) * 262144 + bits b * 4096 + bits c * 64 + bits d), 3)
      else .error (.continuation 3)
  else .error .start

/-- As `scan`, but a surrogate written as three bytes is read as that surrogate. -/
def scanLenient (lead : UInt8) (rest : List UInt8) : Except Flaw (CodePoint × Nat) :=
  match lead, rest with
  | 0xED, b :: c :: _ =>
    if isContinuation b && isContinuation c then
      .ok (codePoint (0xD000 + bits b * 64 + bits c), 2)
    else scan lead rest
  | _, _ => scan lead rest

/-- Where and why reading stopped. -/
structure DecodeError where
  position : Nat
  byte : UInt8
  flaw : Flaw
  deriving DecidableEq

/-- Read all bytes with one of the two scanners; `position` counts the bytes before. -/
def decodeWith (scanner : UInt8 → List UInt8 → Except Flaw (CodePoint × Nat)) (position : Nat) :
    List UInt8 → Except DecodeError Text
  | [] => .ok []
  | lead :: rest =>
    match scanner lead rest with
    | .error flaw => .error ⟨position, lead, flaw⟩
    | .ok (c, n) => (decodeWith scanner (position + n + 1) (rest.drop n)).map (c :: ·)
termination_by bytes => bytes.length
decreasing_by simp only [List.length_cons, List.length_drop]; omega

/-- Read UTF-8 strictly. -/
def decode (bytes : List UInt8) : Except DecodeError Text := decodeWith scan 0 bytes

/-- Read UTF-8 in which surrogates may be written as three bytes. -/
def decodeLenient (bytes : List UInt8) : Except DecodeError Text := decodeWith scanLenient 0 bytes

/-- A first run of surrogates, which have no bytes: its position, its length and its first. -/
structure EncodeError where
  position : Nat
  length : Nat
  first : CodePoint
  deriving DecidableEq

/-- The bytes of a text, or the first run of surrogates in it. -/
def encode (t : Text) : Except EncodeError (List UInt8) :=
  let (plain, rest) := t.span CodePoint.isScalar
  match rest with
  | [] => .ok (t.flatMap encodeOne)
  | first :: _ => .error ⟨plain.length, (rest.takeWhile (!·.isScalar)).length, first⟩

/-- Read as much as possible, with U+FFFD for every flaw, and answer the bytes of a code point
that is not complete yet. With `last` no more bytes will come, and an incomplete code point is a
flaw as well. -/
def replace (last : Bool) : List UInt8 → Text × List UInt8
  | [] => ([], [])
  | lead :: rest =>
    match scan lead rest with
    | .ok (c, n) =>
      let (t, pending) := replace last (rest.drop n)
      (c :: t, pending)
    | .error flaw =>
      match flaw, last with
      | .truncated _, false => ([], lead :: rest)
      | _, _ =>
        let (t, pending) := replace last (rest.drop (flaw.length - 1))
        (.scalar '\uFFFD' :: t, pending)
termination_by bytes => bytes.length
decreasing_by all_goals simp only [List.length_cons, List.length_drop]; omega

end EventStream.Utf8
