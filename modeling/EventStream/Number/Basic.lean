import EventStream.Value.Coercion

/-
# Numbers

Delays and factors are integers or doubles, and which of the two a setting is stays visible: two
integers are multiplied and raised to powers exactly, and as soon as a double takes part the
integer is rounded to a double first. Comparisons are always between the exact values. A NaN is
neither less than, equal to, nor greater than anything.

Arithmetic fails in two ways. An integer may lie beyond all doubles when it has to become one, and
a power of a finite double may lie beyond all doubles. The value of such a power within range is
the one of the platform, whose last bit no rule fixes, except that a base of at least one has no
power below one; that a power is out of range is decided first on the binary exponent alone.
-/

namespace EventStream

/-- An integer or a double. -/
inductive Number where
  | int (i : Int)
  | float (x : Float)
  deriving Inhabited

/-- Why an operation on numbers has no result. -/
inductive ArithmeticError where
  | hugeInteger
  | outOfRange
  deriving DecidableEq

/-- A missing result as a fault. -/
def ArithmeticError.toFault : ArithmeticError → Fault
  | .hugeInteger => .raised .overflow "int too large to convert to float"
  | .outOfRange => .raised .overflow "(34, 'Numerical result out of range')"

namespace Number

/-- A number as a value. -/
def toValue : Number → Value
  | .int i => .int i
  | .float x => .float x

/-- The number of a value that is one; a truth value counts as 0 or 1. -/
def ofValue? : Value → Option Number
  | .bool b => some (.int (Value.intOfBool b))
  | .int i => some (.int i)
  | .float x => some (.float x)
  | _ => none

/-- Whether an integer is less than a double. -/
def intLtFloat (i : Int) (x : Float) : Bool :=
  match Binary64.dyadic? x with
  | some d => d.compareInt i = .gt
  | none => 0.0 < x

/-- Whether a double is less than an integer. -/
def floatLtInt (x : Float) (i : Int) : Bool :=
  match Binary64.dyadic? x with
  | some d => d.compareInt i = .lt
  | none => x < 0.0

/-- Whether one number is less than another. -/
def lt : Number → Number → Bool
  | .int i, .int j => i < j
  | .int i, .float y => intLtFloat i y
  | .float x, .int j => floatLtInt x j
  | .float x, .float y => x < y

/-- The number as a double, if it does not lie beyond all doubles. -/
def toFloat : Number → Except ArithmeticError Float
  | .int i =>
    match Binary64.ofInt? i with
    | some x => .ok x
    | none => .error .hugeInteger
  | .float x => .ok x

/-- The product of two numbers. -/
def mul : Number → Number → Except ArithmeticError Number
  | .int i, .int j => .ok (.int (i * j))
  | a, b => do return .float ((← a.toFloat) * (← b.toFloat))

/-- The greatest `k` for which a positive double is at least `2 ^ k`. -/
def binaryExponent (m : Nat) (e : Int) : Int := (m.log2 : Int) + e

/-- A power of a double, which is not below one if the double is not. -/
def atLeastOne (x power : Float) : Float := if power < 1.0 && !(x < 1.0) then 1.0 else power

/-- A power of a double. The exponent zero gives one, whatever the base, and so does the base one,
whatever the exponent. -/
def powFloat (x : Float) (n : Nat) : Except ArithmeticError Float :=
  match Binary64.ofInt? n with
  | none => .error .hugeInteger
  | some y =>
    if n = 0 || x == 1.0 then .ok 1.0
    else
      match Binary64.magnitude? x with
      | none => .ok (if x < 0.0 && n % 2 = 0 then -x else x)
      | some (m, e) =>
        if 1024 ≤ binaryExponent m e * n then .error .outOfRange
        else
          let power := Float.pow x y
          if Binary64.isFinite power then .ok (atLeastOne x power) else .error .outOfRange

/-- A power of an integer; the powers of one are not computed. -/
def powInt (i : Int) (n : Nat) : Int := if i = 1 then 1 else i.pow n

/-- A power of a number. -/
def pow : Number → Nat → Except ArithmeticError Number
  | .int i, n => .ok (.int (powInt i n))
  | .float x, n => (powFloat x n).map .float

/-- Of two numbers the second if it is less, otherwise the first. -/
def least (a b : Number) : Number := if b.lt a then b else a

/-- A number in decimal. -/
def shown (n : Number) : Text := n.toValue.shown

end Number

end EventStream
