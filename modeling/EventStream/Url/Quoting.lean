import EventStream.Text.Utf8

/-
# Percent-encoding

A value becomes part of a URL byte by byte: letters, digits and the marks `_ . - ~` stand for
themselves, and every other byte of the UTF-8 form is written as a percent sign with two upper-case
hexadecimal digits. In a query a space is written as a plus sign, elsewhere as any other byte. No
separator of a URL survives, so a value can never spill into its neighbours.

`unquote` is the other direction; it is defined on every text and refuses the ones that are no
written form.
-/

namespace EventStream.Url

/-- Where a value stands in a URL. -/
inductive Place where
  | path
  | query
  deriving DecidableEq

/-- Whether a byte stands for itself. -/
def isUnreserved (b : UInt8) : Bool :=
  let n := b.toNat
  (48 ≤ n && n ≤ 57) || (65 ≤ n && n ≤ 90) || (97 ≤ n && n ≤ 122) ||
    n = 45 || n = 46 || n = 95 || n = 126

/-- An upper-case hexadecimal digit. -/
def hexDigit (n : Nat) : CodePoint :=
  .scalar (if n < 10 then Char.ofNat (48 + n) else Char.ofNat (55 + n))

/-- A byte as it stands in a URL. -/
def quoteByte (place : Place) (b : UInt8) : Text :=
  if isUnreserved b then [.scalar (Char.ofNat b.toNat)]
  else if place = .query && b = 32 then [.scalar '+']
  else [.scalar '%', hexDigit (b.toNat / 16), hexDigit (b.toNat % 16)]

/-- A text as it stands in a URL, if it has a UTF-8 form. -/
def quote (place : Place) (t : Text) : Except Utf8.EncodeError Text :=
  (Utf8.encode t).map fun bytes => bytes.flatMap (quoteByte place)

/-- The value of a hexadecimal digit of either case. -/
def hexValue? (c : CodePoint) : Option Nat :=
  let n := c.toNat
  if 48 ≤ n ∧ n ≤ 57 then some (n - 48)
  else if 65 ≤ n ∧ n ≤ 70 then some (n - 55)
  else if 97 ≤ n ∧ n ≤ 102 then some (n - 87)
  else none

/-- The bytes that a quoted text stands for. -/
def unquoteBytes (place : Place) : Text → Option (List UInt8)
  | [] => some []
  | c :: t =>
    if c = .scalar '%' then
      match t with
      | high :: low :: rest => do
        let byte := (← hexValue? high) * 16 + (← hexValue? low)
        return byte.toUInt8 :: (← unquoteBytes place rest)
      | _ => none
    else if place = .query && c = .scalar '+' then (unquoteBytes place t).map (32 :: ·)
    else if c.toNat < 128 then (unquoteBytes place t).map (c.toNat.toUInt8 :: ·)
    else none

/-- The text that a quoted text stands for. -/
def unquote (place : Place) (t : Text) : Option Text := do
  (Utf8.decode (← unquoteBytes place t)).toOption

end EventStream.Url
