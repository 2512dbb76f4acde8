import EventStream.Text.Basic

/-
# UTF-16 and UTF-32

Reading of texts whose code units have two or four bytes, in either byte order. Surrogates without
a partner are kept, as the reader of UTF-8 that accepts surrogates keeps them, so that a text is
read the same whatever its encoding.

The readers of streamed bodies, `replace16` and `replace32`, put U+FFFD in the place of every flaw
instead, and a surrogate without a partner is one.
-/

namespace EventStream.Wide

/-- The order of the bytes of a code unit. -/
inductive Endian where
  | little
  | big
  deriving DecidableEq

/-- Why bytes are no text. -/
inductive Flaw where
  | truncated
  | outOfRange
  deriving DecidableEq

/-- Where and why reading stopped: the position, the bytes at fault and the flaw. -/
structure DecodeError where
  position : Nat
  bytes : List UInt8
  flaw : Flaw
  deriving DecidableEq

/-- The number of bytes in a given order. -/
def number (order : Endian) (bytes : List UInt8) : Nat :=
  let bytes := match order with
    | .big => bytes
    | .little => bytes.reverse
  bytes.foldl (fun n b => n * 256 + b.toNat) 0

/-- The code units of UTF-16. -/
def units16 (order : Endian) (position : Nat) : List UInt8 → Except DecodeError (List Nat)
  | [] => .ok []
  | [a] => .error ⟨position, [a], .truncated⟩
  | a :: b :: rest => (units16 order (position + 2) rest).map (number order [a, b] :: ·)

/-- Whether a code unit is the first of a pair. -/
def isHigh (unit : Nat) : Bool := 0xD800 ≤ unit && unit < 0xDC00

/-- Whether a code unit is the second of a pair. -/
def isLow (unit : Nat) : Bool := 0xDC00 ≤ unit && unit < 0xE000

/-- The code point of a pair of code units. -/
def pair (high low : Nat) : CodePoint :=
  (CodePoint.ofNat? (0x10000 + (high - 0xD800) * 0x400 + (low - 0xDC00))).getD default

/-- Code points of code units; a high surrogate is joined with a low one that follows it. -/
def joinPairs : List Nat → Text
  | [] => []
  | high :: low :: rest =>
    if isHigh high && isLow low then pair high low :: joinPairs rest
    else (CodePoint.ofNat? high).getD default :: joinPairs (low :: rest)
  | [n] => [(CodePoint.ofNat? n).getD default]

/-- Read UTF-16. -/
def decode16 (order : Endian) (position : Nat) (bytes : List UInt8) : Except DecodeError Text :=
  (units16 order position bytes).map joinPairs

/-- Read UTF-32. -/
def decode32 (order : Endian) (position : Nat) : List UInt8 → Except DecodeError Text
  | [] => .ok []
  | a :: b :: c :: d :: rest =>
    match CodePoint.ofNat? (number order [a, b, c, d]) with
    | none => .error ⟨position, [a, b, c, d], .outOfRange⟩
    | some cp => (decode32 order (position + 4) rest).map (cp :: ·)
  | bytes => .error ⟨position, bytes, .truncated⟩

/-- What stands in the place of a flaw. -/
def replacement : CodePoint := .scalar '\uFFFD'

/-- The scalar value with a number, or the replacement of a flaw. -/
def scalarOr (n : Nat) : CodePoint :=
  if n.isValidChar then .scalar (Char.ofNat n) else replacement

/-- Read as much UTF-16 as possible, with U+FFFD for every flaw, and answer the bytes of a code
point that is not complete yet. With `last` no more bytes will come, and an incomplete code point is
a flaw as well. -/
def replace16 (order : Endian) (last : Bool) : List UInt8 → Text × List UInt8
  | [] => ([], [])
  | [a] => if last then ([replacement], []) else ([], [a])
  | a :: b :: rest =>
    let unit := number order [a, b]
    if isHigh unit then
      match rest with
      | c :: d :: more =>
        let next := number order [c, d]
        if isLow next then
          let (t, pending) := replace16 order last more
          (pair unit next :: t, pending)
        else
          let (t, pending) := replace16 order last (c :: d :: more)
          (replacement :: t, pending)
      | rest => if last then ([replacement], []) else ([], a :: b :: rest)
    else
      let (t, pending) := replace16 order last rest
      (scalarOr unit :: t, pending)

/-- Read as much UTF-32 as possible, in the same way. -/
def replace32 (order : Endian) (last : Bool) : List UInt8 → Text × List UInt8
  | a :: b :: c :: d :: rest =>
    let (t, pending) := replace32 order last rest
    (scalarOr (number order [a, b, c, d]) :: t, pending)
  | [] => ([], [])
  | bytes => if last then ([replacement], []) else ([], bytes)

end EventStream.Wide
