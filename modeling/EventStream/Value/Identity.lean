import EventStream.Value.Basic

/-
# Values as terms

Two values can stand for the same (`Value.same`) and be different terms: an integer and a double, or
two tables whose entries are in another order. Whether they are the same term is decided here, so
that what is read from a closed document can be computed.
-/

namespace EventStream.Value

mutual

/-- Whether two values are the same term. -/
def identical : Value → Value → Bool
  | .null, .null => true
  | .bool a, .bool b => a = b
  | .int i, .int j => i = j
  | .float x, .float y => x = y
  | .text t, .text u => t = u
  | .bytes a, .bytes b => a = b
  | .list xs, .list ys => identicalItems xs ys
  | .table t, .table u => identicalEntries t u
  | .moment a, .moment b => a = b
  | _, _ => false

/-- Whether two lists have the same items. -/
def identicalItems : List Value → List Value → Bool
  | [], [] => true
  | x :: xs, y :: ys => identical x y && identicalItems xs ys
  | _, _ => false

/-- Whether two tables have the same entries in the same order. -/
def identicalEntries : List (Text × Value) → List (Text × Value) → Bool
  | [], [] => true
  | (k, v) :: t, (l, w) :: u => k = l && identical v w && identicalEntries t u
  | _, _ => false

end

mutual

theorem identical_iff : ∀ v w : Value, identical v w = true ↔ v = w
  | .list xs, w => by cases w <;> simp [identical, identicalItems_iff xs]
  | .table t, w => by cases w <;> simp [identical, identicalEntries_iff t]
  | .null, w | .bool _, w | .int _, w | .float _, w | .text _, w | .bytes _, w | .moment _, w => by
      cases w <;> simp [identical]

theorem identicalItems_iff : ∀ xs ys : List Value, identicalItems xs ys = true ↔ xs = ys
  | [], ys => by cases ys <;> simp [identicalItems]
  | x :: xs, ys => by
      cases ys <;> simp [identicalItems, identical_iff x, identicalItems_iff xs]

theorem identicalEntries_iff : ∀ t u : Table, identicalEntries t u = true ↔ t = u
  | [], u => by cases u <;> simp [identicalEntries]
  | (k, v) :: t, u => by
      cases u <;>
        simp [identicalEntries, identical_iff v, identicalEntries_iff t, Prod.ext_iff, and_assoc]

end

instance : DecidableEq Value := fun v w => decidable_of_iff _ (identical_iff v w)

end EventStream.Value
