import EventStream.Json.Loading

/-
# What a document looks like

The grammar of documents, apart from any way of reading them. A piece of text writes a value, and a
document is such a piece with spaces around it (`Document`). Numbers are not greedy here: a piece
says where it ends, and it is left to the reader to find that end.

Lists and tables nest no deeper than a number that goes down by one inside each of them. An escaped
pair of surrogates writes one code point, so an escaped high surrogate stands on its own only where
no escaped low one follows it.
-/

namespace EventStream.Json

/-- Nothing but spaces. -/
def Blank (t : Text) : Prop := ∀ c ∈ t, isSpace c = true

/-! ## Numbers -/

/-- Digits, of which there is at least one. -/
def Digits (ds : Text) : Prop := ds ≠ [] ∧ ∀ c ∈ ds, isDigit c = true

/-- Digits before the point: a zero at their head is the only one. -/
def Whole (ds : Text) : Prop := Digits ds ∧ (ds.head? = some (.scalar '0') → ds = [.scalar '0'])

/-- The number that digits name. -/
def worth (ds : Text) : Nat := Numeral.natOfDigits (digitChars ds)

/-- The part after the point, if there is one. -/
inductive Fraction : Text → Option Text → Prop
  | absent : Fraction [] none
  | digits {ds : Text} : Digits ds → Fraction (.scalar '.' :: ds) (some ds)

/-- The letters that begin an exponent. -/
def IsExponentMark (c : CodePoint) : Prop := c = .scalar 'e' ∨ c = .scalar 'E'

/-- The sign of an exponent, if there is one, and whether it is a minus. -/
inductive ExponentSign : Bool → Text → Prop
  | absent : ExponentSign false []
  | plus : ExponentSign false [.scalar '+']
  | minus : ExponentSign true [.scalar '-']

/-- The exponent, if there is one. -/
inductive Exponent : Text → Option Int → Prop
  | absent : Exponent [] none
  | digits {e : CodePoint} {s ds : Text} {negative : Bool} : IsExponentMark e →
      ExponentSign negative s → Digits ds →
      Exponent (e :: (s ++ ds)) (some (if negative then -worth ds else worth ds))

/-- The integer with a given magnitude. -/
def signedInt (negative : Bool) (n : Int) : Value := .int (if negative then -n else n)

/-- The double with a given magnitude. -/
def signedFloat (negative : Bool) (x : Float) : Value := .float (if negative then -x else x)

/-- A number without its sign. Without point and exponent it is an integer, which may not be too
long; otherwise it is the nearest double. -/
inductive Unsigned (negative : Bool) : Text → Value → Prop
  | int {ds : Text} : Whole ds → ds.length ≤ Numeral.digitLimit →
      Unsigned negative ds (signedInt negative (worth ds))
  | float {ds f e : Text} {fraction : Option Text} {exponent : Option Int} :
      Whole ds → Fraction f fraction → Exponent e exponent →
      ¬ (fraction = none ∧ exponent = none) →
      Unsigned negative (ds ++ (f ++ e)) (signedFloat negative (Binary64.ofDecimal
        (worth (ds ++ fraction.getD [])) (exponent.getD 0 - (fraction.getD []).length)))

/-- The words that are values. -/
inductive IsWord : String → Value → Prop
  | null : IsWord "null" .null
  | true : IsWord "true" (.bool true)
  | false : IsWord "false" (.bool false)
  | notANumber : IsWord "NaN" (.float (0.0 / 0.0))
  | infinity : IsWord "Infinity" (.float (1.0 / 0.0))
  | negativeInfinity : IsWord "-Infinity" (.float (-1.0 / 0.0))

/-- What is neither text, list nor table. -/
inductive Scalar : Text → Value → Prop
  | word {w : String} {v : Value} : IsWord w v → Scalar (Text.ofString w) v
  | number {t : Text} {v : Value} : Unsigned false t v → Scalar t v
  | negative {t : Text} {v : Value} : Unsigned true t v → Scalar (.scalar '-' :: t) v

/-! ## Texts -/

/-- What stands between the quotes of a text. -/
inductive Body : Text → Text → Prop
  | empty : Body [] []
  | plain {c : CodePoint} {b t : Text} : c ≠ .scalar '"' → c ≠ .scalar '\\' → 0x20 ≤ c.toNat →
      Body b t → Body (c :: b) (c :: t)
  | escape {e : CodePoint} {x : Char} {b t : Text} : escaped? e = some x → Body b t →
      Body (.scalar '\\' :: e :: b) (.scalar x :: t)
  | pair {h₁ h₂ h₃ h₄ : CodePoint} {high low : Nat} {after b t : Text} :
      hexFour? h₁ h₂ h₃ h₄ = some high → 0xD800 ≤ high → high < 0xDC00 →
      lowEscape? after = some (low, b) → Body b t →
      Body (.scalar '\\' :: .scalar 'u' :: h₁ :: h₂ :: h₃ :: h₄ :: after) (paired high low :: t)
  | unit {h₁ h₂ h₃ h₄ : CodePoint} {n : Nat} {b t : Text} : hexFour? h₁ h₂ h₃ h₄ = some n →
      (0xD800 ≤ n → n < 0xDC00 → lowEscape? b = none) → Body b t →
      Body (.scalar '\\' :: .scalar 'u' :: h₁ :: h₂ :: h₃ :: h₄ :: b) (unit n :: t)

/-- A text between its quotes. -/
def between (b : Text) : Text := .scalar '"' :: (b ++ [.scalar '"'])

/-! ## Lists and tables -/

/-- An item of a list: the piece that writes it, with the spaces around it. -/
structure Item where
  before : Text
  piece : Text
  after : Text
  value : Value

/-- An item as it stands in the list. -/
def Item.written (i : Item) : Text := i.before ++ (i.piece ++ i.after)

/-- Whether nothing but spaces stands around an item. -/
def Item.IsSpaced (i : Item) : Prop := Blank i.before ∧ Blank i.after

/-- An entry of a table: an item, and what stands before its colon. -/
structure Entry extends Item where
  lead : Text
  quoted : Text
  key : Text
  gap : Text

/-- An entry as it stands in the table. -/
def Entry.line (e : Entry) : Text :=
  e.lead ++ (between e.quoted ++ (e.gap ++ .scalar ':' :: e.written))

/-- Whether an entry has a key, and nothing but spaces around the key and the item. -/
def Entry.IsKeyed (e : Entry) : Prop :=
  e.IsSpaced ∧ Blank e.lead ∧ Blank e.gap ∧ Body e.quoted e.key

/-- Pieces with commas between them. -/
def commas (pieces : List Text) : Text := Text.join [.scalar ','] pieces

/-- The pieces that write a value, with no more than so many lists and tables one in the other. -/
inductive Writes : (depth : Nat) → Text → Value → Prop
  | scalar {depth : Nat} {t : Text} {v : Value} : Scalar t v → Writes depth t v
  | text {depth : Nat} {b t : Text} : Body b t → Writes depth (between b) (.text t)
  | emptyList {depth : Nat} {s : Text} : Blank s →
      Writes (depth + 1) (.scalar '[' :: (s ++ [.scalar ']'])) (.list [])
  | list {depth : Nat} {items : List Item} : items ≠ [] → (∀ i ∈ items, i.IsSpaced) →
      (∀ i ∈ items, Writes depth i.piece i.value) →
      Writes (depth + 1) (.scalar '[' :: (commas (items.map Item.written) ++ [.scalar ']']))
        (.list (items.map Item.value))
  | emptyTable {depth : Nat} {s : Text} : Blank s →
      Writes (depth + 1) (.scalar '\x7b' :: (s ++ [.scalar '\x7d'])) (.table [])
  | table {depth : Nat} {entries : List Entry} : entries ≠ [] → (∀ e ∈ entries, e.IsKeyed) →
      (∀ e ∈ entries, Writes depth e.piece e.value) →
      Writes (depth + 1)
        (.scalar '\x7b' :: (commas (entries.map Entry.line) ++ [.scalar '\x7d']))
        (.table (Table.ofEntries (entries.map fun e => (e.key, e.value))))

/-- The texts that are documents, with what they write. -/
def Document (t : Text) (v : Value) : Prop :=
  ∃ before piece after, t = before ++ (piece ++ after) ∧ Blank before ∧ Blank after ∧
    Writes callLimit piece v

end EventStream.Json
