import EventStream.Text.Quoted
import EventStream.Number.Shortest
import EventStream.Value.Moment

/-
# Dynamic values

Frames, settings and event fields carry values whose shape only the sender knows: what a JSON or
TOML document can hold, and bytes. A table keeps its entries in the order in which their keys were
first set; setting a key again keeps its place.

Equality of values (`Value.same`) is equality of what they stand for: an integer equals the double
of the same value, a boolean equals 0 or 1, tables are equal whatever the order of their entries,
and a NaN equals nothing. It is a different relation from equality of the Lean terms.
-/

namespace EventStream

/-- A value of a document. -/
inductive Value where
  | null
  | bool (b : Bool)
  | int (i : Int)
  | float (x : Float)
  | text (t : Text)
  | bytes (b : List UInt8)
  | list (items : List Value)
  | table (entries : List (Text × Value))
  | moment (m : Moment)
  deriving Inhabited

instance : Coe Text Value := ⟨.text⟩

/-- The entries of a table, in order. -/
abbrev Table := List (Text × Value)

namespace Table

/-- The value of a key. -/
def get? (t : Table) (key : Text) : Option Value := t.lookup key

/-- Whether a key occurs. -/
def has (t : Table) (key : Text) : Bool := (t.get? key).isSome

/-- Set a key: in its place if it occurs, at the end otherwise. -/
def set (t : Table) (key : Text) (value : Value) : Table :=
  match t with
  | [] => [(key, value)]
  | (k, v) :: rest => if k = key then (k, value) :: rest else (k, v) :: set rest key value

/-- The table of a list of entries, where a repeated key keeps its first place and takes its last
value. -/
def ofEntries (entries : List (Text × Value)) : Table :=
  entries.foldl (fun t e => t.set e.1 e.2) []

/-- The keys, in order. -/
def keys (t : Table) : List Text := t.map (·.1)

end Table

namespace Value

/-- The name of the kind of a value in messages. -/
def kindName : Value → Text
  | .null => "NoneType"
  | .bool _ => "bool"
  | .int _ => "int"
  | .float _ => "float"
  | .text _ => "str"
  | .bytes _ => "bytes"
  | .list _ => "list"
  | .table _ => "dict"
  | .moment m => m.kindName

/-- The text of a truth value. -/
def shownBool (b : Bool) : Text := if b then "True" else "False"

mutual

/-- A value as it is shown inside a list or a table: texts are quoted. -/
def shown : Value → Text
  | .null => "None"
  | .bool b => shownBool b
  | .int i => Text.ofInt i
  | .float x => Decimal.ofFloat x
  | .text t => Text.quoted t
  | .bytes b => Text.quotedBytes b
  | .list items => Text.concat ["[", shownItems items, "]"]
  | .table entries => Text.concat ["\x7b", shownEntries entries, "\x7d"]
  | .moment m => m.shown

/-- The items of a list with commas between them. -/
def shownItems : List Value → Text
  | [] => []
  | [v] => shown v
  | v :: rest => Text.concat [shown v, ", ", shownItems rest]

/-- The entries of a table with commas between them. -/
def shownEntries : List (Text × Value) → Text
  | [] => []
  | [(k, v)] => Text.concat [Text.quoted k, ": ", shown v]
  | (k, v) :: rest =>
    Text.concat [Text.quoted k, ": ", shown v, ", ", shownEntries rest]

end

/-- A value as a text of its own: a text stands for itself, and a date is not quoted either. -/
def toText : Value → Text
  | .text t => t
  | .moment m => m.isoWith ' '
  | v => shown v

/-- Whether a value counts as absent where a default may take its place. -/
def isEmpty : Value → Bool
  | .null => true
  | .bool b => !b
  | .int i => i = 0
  | .float x => x == 0.0
  | .text t => t.isEmpty
  | .bytes b => b.isEmpty
  | .list items => items.isEmpty
  | .table entries => entries.isEmpty
  | .moment _ => false

/-- The integer that a truth value stands for. -/
def intOfBool (b : Bool) : Int := if b then 1 else 0

/-- Whether an integer and a double have the same value. -/
def intEqFloat (i : Int) (x : Float) : Bool :=
  match Binary64.dyadic? x with
  | none => false
  | some d => d.compareInt i = .eq

mutual

/-- Whether two values stand for the same thing. -/
def same : Value → Value → Bool
  | .null, .null => true
  | .text s, .text t => s = t
  | .bytes a, .bytes b => a = b
  | .list xs, .list ys => sameItems xs ys
  | .table xs, .table ys => xs.length = ys.length && sameEntries xs ys
  | .moment a, .moment b => a.same b
  | .bool a, .bool b => a = b
  | .bool a, .int j => intOfBool a = j
  | .bool a, .float y => intEqFloat (intOfBool a) y
  | .int i, .bool b => i = intOfBool b
  | .int i, .int j => i = j
  | .int i, .float y => intEqFloat i y
  | .float x, .bool b => intEqFloat (intOfBool b) x
  | .float x, .int j => intEqFloat j x
  | .float x, .float y => x == y
  | _, _ => false

/-- Whether two lists have the same items in the same order. -/
def sameItems : List Value → List Value → Bool
  | [], [] => true
  | x :: xs, y :: ys => same x y && sameItems xs ys
  | _, _ => false

/-- Whether every entry of the first table has a counterpart in the second. -/
def sameEntries : List (Text × Value) → List (Text × Value) → Bool
  | [], _ => true
  | (k, v) :: rest, other =>
    (match other.lookup k with
      | some w => same v w
      | none => false) && sameEntries rest other

end

/-- The entries of a value that is a table. -/
def table? : Value → Option Table
  | .table entries => some entries
  | _ => none

end Value

end EventStream
