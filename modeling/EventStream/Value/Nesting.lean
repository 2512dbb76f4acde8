import EventStream.Value.Basic

/-
# Values inside values

Whoever goes through a table that holds tables calls itself for each of them, and whoever compares
two values, or reads one from a document, calls itself for what stands inside. Calls cannot nest
without end, so tables may lie too deep to be gone through, and values too deep to be compared or
even to be read.
-/

namespace EventStream

/-- How many calls may nest, beyond those that a program has made already. -/
def callLimit : Nat := 990

namespace Value

mutual

/-- How many tables lie one in the other, from this one on. Tables in lists do not count. -/
def depth : Value → Nat
  | .table entries => entriesDepth entries + 1
  | _ => 0

/-- How many tables lie one in the other below the entries of a table. -/
def entriesDepth : List (Text × Value) → Nat
  | [] => 0
  | (_, v) :: rest => max (depth v) (entriesDepth rest)

end

/-- The values under the keys of a table beside those of another one, up to the first key that the
other one does not have. -/
def counterparts (other : Table) : Table → List (Value × Value)
  | [] => []
  | (key, v) :: rest =>
    match other.get? key with
    | none => []
    | some w => (w, v) :: counterparts other rest

/-- Whether pairs can be compared one after the other, up to the first that differs. -/
def allComparable (comparable : Value → Value → Bool) : List (Value × Value) → Bool
  | [] => true
  | (v, w) :: rest => comparable v w && (!v.same w || allComparable comparable rest)

/-- Whether two values can be compared with so many calls, one in the other. -/
def comparable : (calls : Nat) → Value → Value → Bool
  | 0, _, _ => false
  | calls + 1, .list xs, .list ys =>
    xs.length ≠ ys.length || allComparable (comparable calls) (xs.zip ys)
  | calls + 1, .table t, .table u =>
    t.length ≠ u.length || allComparable (comparable calls) (counterparts u t)
  | _ + 1, _, _ => true

end Value

end EventStream
