/-
# Text

Frames, settings and URLs are sequences of Unicode code points. A text that came out of a JSON
escape may hold a surrogate on its own, and such a surrogate has to survive until somebody asks
for bytes; a `String` cannot hold it. So a text is a list of code points, and a code point is
either a scalar value or one of the 2048 surrogates. The embedding `Text.ofString` covers exactly
the texts without surrogates, and it is a coercion, so literals read as usual.

The operations below are the few that the library needs on a list of code points: cutting at a
separator, stripping one end, replacing, and the order by code point number.
-/

namespace EventStream

/-- A Unicode code point: a scalar value, or a surrogate counted from U+D800. -/
inductive CodePoint where
  | scalar (c : Char)
  | surrogate (index : Fin 2048)
  deriving DecidableEq, Inhabited

namespace CodePoint

/-- The number of a code point. -/
def toNat : CodePoint → Nat
  | .scalar c => c.toNat
  | .surrogate i => 0xD800 + i.val

/-- The code point with a given number, if the number is below U+110000. -/
def ofNat? (n : Nat) : Option CodePoint :=
  if n.isValidChar then some (.scalar (Char.ofNat n))
  else if h : 0xD800 ≤ n ∧ n < 0xE000 then some (.surrogate ⟨n - 0xD800, by omega⟩)
  else none

/-- Whether a code point is a scalar value. -/
def isScalar : CodePoint → Bool
  | .scalar _ => true
  | .surrogate _ => false

instance : Coe Char CodePoint := ⟨.scalar⟩

end CodePoint

/-- A text is a list of code points. -/
abbrev Text := List CodePoint

namespace Text

/-- The code points of a string. -/
def ofString (s : String) : Text := s.toList.map .scalar

instance : Coe String Text := ⟨ofString⟩

/-- The text of a list of characters. -/
def ofChars (cs : List Char) : Text := cs.map .scalar

/-- Texts one after another; a message is written as the list of its parts. -/
def concat (parts : List Text) : Text := parts.flatten

/-- A natural number in decimal. -/
def ofNat (n : Nat) : Text := ofChars (Nat.toDigits 10 n)

/-- An integer in decimal, with a minus sign where it is negative. -/
def ofInt : Int → Text
  | .ofNat n => ofNat n
  | .negSucc n => .scalar '-' :: ofNat (n + 1)

/-- Order by the numbers of the code points, a shorter text before its extensions. -/
def ble : Text → Text → Bool
  | [], _ => true
  | _ :: _, [] => false
  | a :: s, b :: t => a.toNat < b.toNat || (a.toNat == b.toNat && ble s t)

/-- Texts in order, each as often as it occurs. -/
def sort (ts : List Text) : List Text := ts.mergeSort ble

/-- Whether a text ends with another. -/
def endsWith (t tail : Text) : Bool := tail.isSuffixOf t

/-- A text without the code points at its start that satisfy `p`. -/
def dropStart (p : CodePoint → Bool) (t : Text) : Text := t.dropWhile p

/-- A text without the code points at its end that satisfy `p`. -/
def dropEnd (p : CodePoint → Bool) (t : Text) : Text := (t.reverse.dropWhile p).reverse

/-- A text without the code points at both ends that satisfy `p`. -/
def trim (p : CodePoint → Bool) (t : Text) : Text := dropEnd p (dropStart p t)

/-- Cut at the first separator: what stands before it, and what follows it if it occurs. -/
def cut (sep : CodePoint) : Text → Text × Option Text
  | [] => ([], none)
  | c :: t => if c = sep then ([], some t) else
    let (head, rest) := cut sep t
    (c :: head, rest)

/-- The pieces between the occurrences of a separator; there is always at least one. -/
def split (sep : CodePoint) : Text → List Text
  | [] => [[]]
  | c :: t =>
    if c = sep then [] :: split sep t
    else match split sep t with
      | [] => [[c]]
      | piece :: pieces => (c :: piece) :: pieces

/-- The pieces joined by a separator. -/
def join (sep : Text) : List Text → Text
  | [] => []
  | [piece] => piece
  | piece :: pieces => piece ++ sep ++ join sep pieces

/-- Whether one text occurs inside another. -/
def containsText (needle : Text) : Text → Bool
  | [] => needle.isEmpty
  | c :: t => needle.isPrefixOf (c :: t) || containsText needle t

/-- Lower-case the letters A to Z. -/
def toLowerAscii (t : Text) : Text :=
  t.map fun
    | .scalar c => .scalar c.toLower
    | .surrogate i => .surrogate i

/-- Whether every code point is below U+0080. -/
def isAscii (t : Text) : Bool := t.all fun c => c.toNat < 0x80

end Text

end EventStream
