import EventStream.Text.Basic

/-
# The exact value of a double

A finite double is an integer times a power of two. Comparisons with integers, truncation and
printing are all done on that exact value, so none of them depends on a rounding of its own.
-/

namespace EventStream.Binary64

/-- An integer times a power of two. -/
structure Dyadic where
  mantissa : Int
  exponent : Int
  deriving DecidableEq

/-- The sign bit of a double. -/
def isNegative (x : Float) : Bool := x.toBits >>> 63 = 1

/-- The mantissa of the magnitude of a finite double, with its exponent. -/
def magnitude? (x : Float) : Option (Nat × Int) :=
  let bits : Nat := x.toBits.toNat
  let exponent : Nat := bits / Nat.pow 2 52 % 2048
  let fraction : Nat := bits % Nat.pow 2 52
  if exponent = 2047 then none
  else if exponent = 0 then some (fraction, -1074)
  else some (Nat.pow 2 52 + fraction, (exponent : Int) - 1075)

/-- The exact value of a finite double. -/
def dyadic? (x : Float) : Option Dyadic :=
  (magnitude? x).map fun (m, e) => ⟨if isNegative x then -(m : Int) else m, e⟩

/-- Whether a double is finite. -/
def isFinite (x : Float) : Bool := (magnitude? x).isSome

/-- The integer part of a dyadic number, cut toward zero. -/
def Dyadic.truncate (d : Dyadic) : Int :=
  if 0 ≤ d.exponent then d.mantissa * Int.pow 2 d.exponent.toNat
  else d.mantissa.tdiv (Int.pow 2 (-d.exponent).toNat)

/-- How a dyadic number compares with an integer. -/
def Dyadic.compareInt (d : Dyadic) (i : Int) : Ordering :=
  if 0 ≤ d.exponent then compare (d.mantissa * Int.pow 2 d.exponent.toNat) i
  else compare d.mantissa (i * Int.pow 2 (-d.exponent).toNat)

/-- The integer part of a finite double, cut toward zero. -/
def truncate? (x : Float) : Option Int := (dyadic? x).map Dyadic.truncate

/-- The nearest double, if the integer does not lie beyond all doubles. -/
def ofInt? (i : Int) : Option Float :=
  let x := Float.ofInt i
  if isFinite x then some x else none

/-- The double nearest to `mantissa` times a power of ten. Exponents that lead out of the range of
doubles whatever the mantissa are answered at once. -/
def ofDecimal (mantissa : Nat) (exponent : Int) : Float :=
  if mantissa = 0 then 0.0
  else
    let size : Int := (Nat.toDigits 10 mantissa).length + exponent
    if 400 < size then 1.0 / 0.0
    else if size < -400 then 0.0
    else if 0 ≤ exponent then Float.ofScientific mantissa false exponent.toNat
    else Float.ofScientific mantissa true (-exponent).toNat

end EventStream.Binary64
