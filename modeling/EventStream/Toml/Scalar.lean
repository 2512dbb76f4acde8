import EventStream.Toml.Error
import EventStream.Json.Parser

/-
# Numbers and times in settings files

A number is a decimal integer or fraction with single underscores between digits, or an integer
with a hexadecimal, octal or binary mark. A date is four, two and two digits, and a time follows
it after a `T` or a space; a time may also stand alone. Each reader takes the longest form that
fits and leaves the rest, so that what cannot belong to the value is seen by whoever reads on.
-/

namespace EventStream.Toml

/-- Exactly `width` digits, as a number. -/
def fixedDigits? (width : Nat) (t : Text) : Option (Nat × Text) :=
  let digits := t.take width
  if digits.length = width && digits.all isDigit then
    some (Numeral.natOfDigits (Json.digitChars digits), t.drop width)
  else none

/-- Two digits in a range. -/
def twoDigits? (low high : Nat) (t : Text) : Option (Nat × Text) := do
  let (n, rest) ← fixedDigits? 2 t
  if low ≤ n ∧ n ≤ high then some (n, rest) else none

/-- The text after an expected code point. -/
def expect? (c : Char) (t : Text) : Option Text :=
  match t with
  | d :: rest => if d = .scalar c then some rest else none
  | [] => none

/-- The microseconds after a point, zero if there are none; further digits are dropped. -/
def fraction (t : Text) : Nat × Text :=
  match t with
  | .scalar '.' :: rest =>
    let digits := rest.takeWhile isDigit
    if digits.isEmpty then (0, t)
    else
      let six := Json.digitChars (digits.take 6)
      (Numeral.natOfDigits (six ++ List.replicate (6 - six.length) '0'), rest.drop digits.length)
  | _ => (0, t)

/-- A time of day. -/
def time? (t : Text) : Option (TimeOfDay × Text) := do
  let (hour, t) ← twoDigits? 0 23 t
  let (minute, t) ← twoDigits? 0 59 (← expect? ':' t)
  let (second, t) ← twoDigits? 0 59 (← expect? ':' t)
  let (microsecond, t) := fraction t
  return (⟨hour, minute, second, microsecond⟩, t)

/-- An offset from UTC in minutes. -/
def offset? (t : Text) : Option (Int × Text) :=
  match t with
  | .scalar 'Z' :: rest | .scalar 'z' :: rest => some (0, rest)
  | sign :: rest => do
    if sign ≠ .scalar '+' && sign ≠ .scalar '-' then none
    let (hours, rest) ← twoDigits? 0 23 rest
    let (minutes, rest) ← twoDigits? 0 59 (← expect? ':' rest)
    let n : Int := hours * 60 + minutes
    return (if sign = .scalar '-' then -n else n, rest)
  | [] => none

/-- The fields of a date. -/
def date? (t : Text) : Option (Date × Text) := do
  let (year, t) ← fixedDigits? 4 t
  let (month, t) ← twoDigits? 1 12 (← expect? '-' t)
  let (day, t) ← twoDigits? 1 31 (← expect? '-' t)
  return (⟨year, month, day⟩, t)

/-- The time that follows a date. -/
def timeAfterDate? (t : Text) : Option (TimeOfDay × Text) :=
  match t with
  | c :: rest =>
    if c = .scalar 'T' || c = .scalar 't' || c = .scalar ' ' then time? rest else none
  | [] => none

/-- A date, perhaps with a time and an offset, or a time alone. -/
def moment? (t : Text) : Option (Except Error (Moment × Text)) :=
  match date? t with
  | some (d, rest) =>
    some <|
      if !d.isValid then .error .malformed
      else match timeAfterDate? rest with
        | none => .ok (.date d, rest)
        | some (time, rest) =>
          match offset? rest with
          | none => .ok (.floating d time, rest)
          | some (offset, rest) => .ok (.zoned d time offset, rest)
  | none => (time? t).map fun (time, rest) => .ok (.time time, rest)

/-- Digits of a sort with single underscores between them; nothing if there is no digit first. -/
def run (isOne : CodePoint → Bool) : Text → Text × Text
  | c :: u :: d :: rest =>
    if isOne c then
      if u = .scalar '_' && isOne d then
        let (more, after) := run isOne (d :: rest)
        (c :: more, after)
      else
        let (more, after) := run isOne (u :: d :: rest)
        (c :: more, after)
    else ([], c :: u :: d :: rest)
  | [c, u] =>
    if isOne c then (if isOne u then ([c, u], []) else ([c], [u])) else ([], [c, u])
  | [c] => if isOne c then ([c], []) else ([], [c])
  | [] => ([], [])

/-- Whether a code point is a digit in a base up to sixteen. -/
def isDigitOf (base : Nat) (c : CodePoint) : Bool :=
  match Json.hexValue? c with
  | some v => v < base
  | none => false

/-- An integer with a mark for its base. -/
def marked? (t : Text) : Option (Int × Text) :=
  let read (base : Nat) (rest : Text) : Option (Int × Text) :=
    let (digits, after) := run (isDigitOf base) rest
    if digits.isEmpty then none
    else
      let n := digits.foldl (fun n c => n * base + (Json.hexValue? c).getD 0) 0
      some (n, after)
  match t with
  | .scalar '0' :: .scalar 'x' :: rest => read 16 rest
  | .scalar '0' :: .scalar 'o' :: rest => read 8 rest
  | .scalar '0' :: .scalar 'b' :: rest => read 2 rest
  | _ => none

/-- A sign, and what follows it. -/
def sign (t : Text) : Bool × Text :=
  match t with
  | .scalar '-' :: rest => (true, rest)
  | .scalar '+' :: rest => (false, rest)
  | _ => (false, t)

/-- The digits before a point: zero alone, or digits that do not start with a zero. -/
def wholePart (t : Text) : Text × Text :=
  match t with
  | .scalar '0' :: rest => ([.scalar '0'], rest)
  | _ => run isDigit t

/-- The digits after a point, if a point with digits comes next. -/
def fractionDigits (t : Text) : Option Text × Text :=
  match t with
  | .scalar '.' :: rest =>
    let (digits, after) := run isDigit rest
    if digits.isEmpty then (none, t) else (some digits, after)
  | _ => (none, t)

/-- The exponent, if an exponent part comes next. -/
def exponent (t : Text) : Option Int × Text :=
  match t with
  | c :: rest =>
    if c = .scalar 'e' || c = .scalar 'E' then
      let (negative, rest) := sign rest
      let (digits, after) := run isDigit rest
      if digits.isEmpty then (none, t)
      else
        let n : Int := Numeral.natOfDigits (Json.digitChars digits)
        (some (if negative then -n else n), after)
    else (none, t)
  | [] => (none, t)

/-- A decimal number. -/
def decimal? (t : Text) : Option (Except Error (Value × Text)) :=
  let (negative, unsigned) := sign t
  let (whole, rest) := wholePart unsigned
  if whole.isEmpty then none
  else
    let (fractional, rest) := fractionDigits rest
    let (power, rest) := exponent rest
    if fractional.isNone && power.isNone then
      some <|
        if Numeral.digitLimit < whole.length then .error (.number (.tooManyDigits whole.length))
        else
          let n : Int := Numeral.natOfDigits (Json.digitChars whole)
          .ok (.int (if negative then -n else n), rest)
    else
      let fractional := fractional.getD []
      let digits := Numeral.natOfDigits (Json.digitChars (whole ++ fractional))
      let x := Binary64.ofDecimal digits (power.getD 0 - fractional.length)
      some (.ok (.float (if negative then -x else x), rest))

/-- A number that is no decimal: infinity, or not a number. -/
def special? (t : Text) : Option (Value × Text) :=
  let (negative, unsigned) := sign t
  match unsigned with
  | .scalar 'i' :: .scalar 'n' :: .scalar 'f' :: rest =>
    some (.float (if negative then -1.0 / 0.0 else 1.0 / 0.0), rest)
  | .scalar 'n' :: .scalar 'a' :: .scalar 'n' :: rest => some (.float (0.0 / 0.0), rest)
  | _ => none

/-- A truth value. -/
def truth? (t : Text) : Option (Value × Text) :=
  match t with
  | .scalar 't' :: .scalar 'r' :: .scalar 'u' :: .scalar 'e' :: rest => some (.bool true, rest)
  | .scalar 'f' :: .scalar 'a' :: .scalar 'l' :: .scalar 's' :: .scalar 'e' :: rest =>
    some (.bool false, rest)
  | _ => none

/-- A value that is neither text, list nor table. -/
def scalarValue (t : Text) : Read Value :=
  match truth? t with
  | some found => .ok found
  | none =>
    match moment? t with
    | some found => found.map fun (m, rest) => (.moment m, rest)
    | none =>
      match marked? t with
      | some (n, rest) => .ok (.int n, rest)
      | none =>
        match decimal? t with
        | some found => found
        | none =>
          match special? t with
          | some found => .ok found
          | none => .error .malformed

end EventStream.Toml
