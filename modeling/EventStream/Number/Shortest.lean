import EventStream.Number.Binary64

/-
# Decimal text of a double

A double is written with the fewest digits that read back to it, and of two such digit strings
with the nearer one. The reals that round to a double `m * 2 ^ q` form an interval around it, ends
included exactly when `m` is even. On the grid of decimals with a given number of digits only the
two neighbours of the value can be nearest, so the search asks for one digit, two digits, and so
on, whether a neighbour lies in the interval; seventeen digits always suffice.

How the digits are laid out is a separate decision, kept in one record.
-/

namespace EventStream.Decimal

/-- A positive rational number with the interval of reals that round to the same double, over one
denominator. -/
structure Target where
  value : Nat
  low : Nat
  high : Nat
  closed : Bool
  denominator : Nat

/-- The target of the double with a given mantissa and exponent. Just above a power of two the
gap below is half as wide as the gap above. -/
def target (m : Nat) (q : Int) : Target :=
  let scale := if q ≤ 2 then 1 else Nat.pow 2 (q - 2).toNat
  let below := if m = Nat.pow 2 52 && q ≠ -1074 then 1 else 2
  ⟨4 * m * scale, (4 * m - below) * scale, (4 * m + 2) * scale, m % 2 = 0,
    if q ≤ 2 then Nat.pow 2 (2 - q).toNat else 1⟩

/-- The number `k` of digits before the point: the value lies between the powers `k - 1` and `k`
of ten. -/
def magnitude (value denominator : Nat) : Int :=
  if denominator ≤ value then (Nat.toDigits 10 (value / denominator)).length
  else below 400 value
where
  /-- Count the zeros that follow the point. -/
  below : Nat → Nat → Int
    | 0, _ => 0
    | fuel + 1, v => if denominator ≤ v * 10 then 0 else below fuel (v * 10) - 1

/-- Digits, read as an integer, and the number of them that stand before the point. -/
structure Digits where
  digits : Nat
  point : Int

/-- The neighbours of the target on the grid of `count` digits that round to the same double; of
two the nearer, and of two equally near the even one. -/
def onGrid? (t : Target) (point : Int) (count : Nat) : Option Nat :=
  let step := point - count
  -- candidate `c` stands for `c * 10 ^ step`; both sides are brought over one denominator
  let up := if 0 ≤ step then Nat.pow 10 step.toNat else 1
  let down := if 0 ≤ step then 1 else Nat.pow 10 (-step).toNat
  let unit := t.denominator * up
  let value := t.value * down
  let inside (c : Nat) : Bool :=
    let x := c * unit
    let low := t.low * down
    let high := t.high * down
    if t.closed then low ≤ x && x ≤ high else low < x && x < high
  let floor := value / unit
  let remainder := value % unit
  match inside floor, inside (floor + 1) with
  | false, false => none
  | true, false => some floor
  | false, true => some (floor + 1)
  | true, true =>
    if 2 * remainder < unit then some floor
    else if unit < 2 * remainder then some (floor + 1)
    else if floor % 2 = 0 then some floor else some (floor + 1)

/-- The shortest digits of the positive double with a given mantissa and exponent. -/
def shortest (m : Nat) (q : Int) : Digits :=
  let t := target m q
  let point := magnitude t.value t.denominator
  match (List.range 17).findSome? fun i => (onGrid? t point (i + 1)).map fun d => (d, i + 1) with
  | none => ⟨0, 0⟩
  | some (d, count) =>
    -- a candidate that was rounded up to a power of ten has one digit more
    ⟨d, point + (Nat.toDigits 10 d).length - count⟩

/-- How the digits of a double are laid out. -/
structure Layout where
  /-- The least exponent of the leading digit that is written without an exponent part. -/
  leastPositional : Int
  /-- The first exponent of the leading digit that is too large for that. -/
  endPositional : Int
  /-- The least number of digits of the exponent part. -/
  exponentDigits : Nat

/-- Numbers from 0.0001 up to, but not including, 10 ^ 16 are positional, and an exponent part has
at least two digits. -/
def layout : Layout := ⟨-4, 16, 2⟩

/-- The digits of a number without the zeros at its end. -/
def significant (n : Nat) : List Char :=
  let digits := Nat.toDigits 10 n
  match (digits.reverse.dropWhile (· = '0')).reverse with
  | [] => ['0']
  | ds => ds

/-- Digits laid out as text. -/
def Layout.write (l : Layout) (d : Digits) : List Char :=
  let digits := significant d.digits
  let leading := d.point - 1
  if l.leastPositional ≤ leading && leading < l.endPositional then
    if d.point ≤ 0 then
      ['0', '.'] ++ List.replicate (-d.point).toNat '0' ++ digits
    else if digits.length ≤ d.point then
      digits ++ List.replicate (d.point.toNat - digits.length) '0' ++ ['.', '0']
    else digits.take d.point.toNat ++ ['.'] ++ digits.drop d.point.toNat
  else
    let exponent := Nat.toDigits 10 leading.natAbs
    let fraction := digits.drop 1
    digits.take 1 ++ (if fraction.isEmpty then [] else '.' :: fraction) ++
      ['e', if leading < 0 then '-' else '+'] ++
      List.replicate (l.exponentDigits - exponent.length) '0' ++ exponent

/-- A double in decimal. -/
def ofFloat (x : Float) : Text :=
  let sign := if Binary64.isNegative x then ['-'] else []
  Text.ofChars <|
    match Binary64.magnitude? x with
    | none => if x.isNaN then ['n', 'a', 'n'] else sign ++ ['i', 'n', 'f']
    | some (0, _) => sign ++ ['0', '.', '0']
    | some (m, q) => sign ++ layout.write (shortest m q)

/-- The quotient rounded to the nearest integer, a half to the even neighbour. -/
def roundHalfEven (numerator denominator : Nat) : Nat :=
  let q := numerator / denominator
  let r := numerator % denominator
  if 2 * r < denominator then q
  else if denominator < 2 * r then q + 1
  else if q % 2 = 0 then q else q + 1

/-- A double with one digit after the point, rounded exactly, a half to the even neighbour. -/
def tenths (x : Float) : Text :=
  let sign := if Binary64.isNegative x then ['-'] else []
  Text.ofChars <|
    match Binary64.magnitude? x with
    | none => if x.isNaN then ['n', 'a', 'n'] else sign ++ ['i', 'n', 'f']
    | some (m, q) =>
      let n := if 0 ≤ q then m * Nat.pow 2 q.toNat * 10
        else roundHalfEven (m * 10) (Nat.pow 2 (-q).toNat)
      sign ++ Nat.toDigits 10 (n / 10) ++ ['.'] ++ Nat.toDigits 10 (n % 10)

end EventStream.Decimal
