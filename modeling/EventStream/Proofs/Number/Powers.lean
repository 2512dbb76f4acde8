import EventStream.Proofs.Number.Order
import EventStream.Proofs.Results

/-
# Powers that are out of range

A number times a power of another has no result if something takes part that lies beyond all
doubles: the power of a double, or an integer that meets a double. `OutOfRange` says when this is
so, and `scaled_cases` that nothing else goes wrong: otherwise the product is a number, if perhaps
an infinite one. Integers by themselves are computed exactly, so they are never out of range.

Of a power of a double it is settled by the exponents alone that it is out of range, if a power of
two below it is. What the platform's own power function answers below that is not known here, and
`PowerOverflows` mentions it.
-/

namespace EventStream

open Binary64 (Extent overflow isFinite)

namespace Number

/-- Numbers that are integers. -/
def IsInt : Number → Prop
  | .int _ => True
  | .float _ => False

/-- Numbers that are rational. -/
def IsFinite : Number → Prop
  | .int _ => True
  | .float x => isFinite x = true

/-- One number is at most another. -/
def AtMost (a b : Number) : Prop := ∃ v w, a.value? = some v ∧ b.value? = some w ∧ v ≤ w

theorem IsFinite.value {a : Number} (finite : a.IsFinite) :
    ∃ q : ℚ, a.value? = some (.ofRat q) := by
  cases a with
  | int i => exact ⟨i, rfl⟩
  | float x => exact Binary64.exists_value?_of_isFinite finite

theorem atMost_of_not_lt {a b : Number} {v w : Extent} (value : a.value? = some v)
    (value' : b.value? = some w) (least : a.lt b = false) : b.AtMost a :=
  ⟨w, v, value', value, not_lt.mp ((lt_iff value value').not.mp (by simp [least]))⟩

/-- Whether a power of a double is out of range. The exponent may be beyond all doubles itself; and
the power is out of range if that of a power of two below the base is, or if the platform has no
finite double for it. -/
def PowerOverflows (x : Float) (n : Nat) : Prop :=
  overflow ≤ n ∨ n ≠ 0 ∧ (x == 1.0) = false ∧
    ((∃ k : Nat, AtMost (.int (2 ^ k)) (.float x) ∧ 1024 ≤ k * n) ∨
      isFinite (Float.pow x (Float.ofInt n)) = false)

theorem two_zpow_le_iff {m : Nat} {e : Int} (pos : 0 < m) (k : Int) :
    (2 : ℚ) ^ k ≤ m * 2 ^ e ↔ k ≤ binaryExponent m e := by
  have low : (2 : ℚ) ^ m.log2 ≤ m := by exact_mod_cast Nat.log2_self_le pos.ne'
  have high : (m : ℚ) < 2 ^ (m.log2 + 1) := by exact_mod_cast Nat.lt_log2_self
  unfold binaryExponent
  refine ⟨fun le => ?_, fun le => ?_⟩
  · have less : (2 : ℚ) ^ k < 2 ^ ((m.log2 : Int) + 1 + e) := by
      calc (2 : ℚ) ^ k
        _ ≤ m * 2 ^ e := le
        _ < 2 ^ (m.log2 + 1) * 2 ^ e := by gcongr
        _ = 2 ^ ((m.log2 : Int) + 1 + e) := by
          rw [zpow_add₀ (by norm_num), zpow_add_one₀ (by norm_num), zpow_natCast, pow_succ]
    have := (zpow_lt_zpow_iff_right₀ (by norm_num)).mp less
    omega
  · calc (2 : ℚ) ^ k
      _ ≤ 2 ^ ((m.log2 : Int) + e) := zpow_le_zpow_right₀ (by norm_num) le
      _ = 2 ^ m.log2 * 2 ^ e := by rw [zpow_add₀ (by norm_num), zpow_natCast]
      _ ≤ m * 2 ^ e := by gcongr

theorem ofRat_le_ofRat {q r : ℚ} : Extent.ofRat q ≤ Extent.ofRat r ↔ q ≤ r := by
  rw [← not_lt, Extent.ofRat_lt_ofRat, not_lt]

theorem atMost_int_float_iff {i : Int} {x : Float} {q : ℚ}
    (value : Binary64.value? x = some (.ofRat q)) : AtMost (.int i) (.float x) ↔ (i : ℚ) ≤ q := by
  rw [← ofRat_le_ofRat]
  refine ⟨fun ⟨v, w, left, right, le⟩ => ?_, fun le => ⟨_, _, rfl, value, le⟩⟩
  obtain rfl := Option.some.inj left
  obtain rfl : w = .ofRat q := Option.some.inj (right.symm.trans value)
  exact le

theorem atMost_int_int_iff {i j : Int} : AtMost (.int i) (.int j) ↔ i ≤ j := by
  constructor
  · rintro ⟨v, w, left, right, le⟩
    obtain rfl := Option.some.inj left
    obtain rfl := Option.some.inj right
    exact_mod_cast ofRat_le_ofRat.mp le
  · exact fun le => ⟨_, _, rfl, rfl, ofRat_le_ofRat.mpr (by exact_mod_cast le)⟩

/-- A double of at least one is its mantissa times its power of two. -/
theorem value_of_one_le {x : Float} {m : Nat} {e : Int} (least : AtMost (.int 1) (.float x))
    (magnitude : Binary64.magnitude? x = some (m, e)) :
    0 < m ∧ Binary64.value? x = some (.ofRat (m * 2 ^ e)) := by
  have power : (0 : ℚ) < 2 ^ e := by positivity
  have value : Binary64.value? x =
      some (.ofRat ((if Binary64.isNegative x then -(m : Int) else m : Int) * 2 ^ e)) := by
    rw [Binary64.value?, Binary64.dyadic?, magnitude]
    rfl
  rw [atMost_int_float_iff value] at least
  split at least
  case isTrue =>
    have below : (-m * 2 ^ e : ℚ) ≤ 0 := by
      rw [neg_mul]
      exact neg_nonpos.mpr (by positivity)
    push_cast at least
    linarith
  case isFalse positive =>
    rw [if_neg positive] at value
    refine ⟨Nat.pos_of_ne_zero ?_, by simpa using value⟩
    rintro rfl
    norm_num at least

theorem exists_two_pow_iff {x : Float} {m : Nat} {e : Int} (least : AtMost (.int 1) (.float x))
    (magnitude : Binary64.magnitude? x = some (m, e)) (n : Nat) :
    (∃ k : Nat, AtMost (.int (2 ^ k)) (.float x) ∧ 1024 ≤ k * n) ↔
      1024 ≤ binaryExponent m e * n := by
  obtain ⟨pos, value⟩ := value_of_one_le least magnitude
  have atMost (k : Nat) : AtMost (.int (2 ^ k)) (.float x) ↔ (k : Int) ≤ binaryExponent m e := by
    rw [atMost_int_float_iff value, ← two_zpow_le_iff pos, zpow_natCast]
    push_cast
    rfl
  obtain ⟨l, log⟩ := Int.eq_ofNat_of_zero_le ((atMost 0).mp (by simpa using least))
  simp only [atMost, log]
  refine ⟨fun ⟨k, le, large⟩ => ?_, fun large => ⟨l, le_rfl, by exact_mod_cast large⟩⟩
  have more : k * n ≤ l * n := Nat.mul_le_mul_right n (by exact_mod_cast le)
  exact_mod_cast large.trans more

theorem ofInt?_eq (n : Nat) :
    Binary64.ofInt? n = if n < overflow then some (Float.ofInt n) else none := by
  unfold Binary64.ofInt?
  simp only [Binary64.isFinite_ofInt_iff]

theorem isFinite_atLeastOne (x : Float) {power : Float} (finite : isFinite power = true) :
    isFinite (atLeastOne x power) = true := by
  unfold atLeastOne
  split
  · rfl
  · exact finite

/-- A power of a finite double of at least one is a finite double, unless it is out of range. -/
theorem powFloat_cases {x : Float} (finite : isFinite x = true) (least : AtMost (.int 1) (.float x))
    (n : Nat) : PowerOverflows x n ∧ (∃ e, powFloat x n = .error e) ∨
      ¬ PowerOverflows x n ∧ ∃ y, powFloat x n = .ok y ∧ isFinite y = true := by
  obtain ⟨⟨m, e⟩, magnitude⟩ := Option.isSome_iff_exists.mp finite
  unfold powFloat PowerOverflows
  rw [ofInt?_eq]
  by_cases beyond : n < overflow
  case neg => exact .inl ⟨.inl (not_lt.mp beyond), _, by rw [if_neg beyond]⟩
  rw [if_pos beyond]
  simp only [exists_two_pow_iff least magnitude, magnitude]
  by_cases one : (n = 0 || x == 1.0) = true
  · refine .inr ⟨?_, 1.0, if_pos one, rfl⟩
    rintro (far | ⟨some, other, -⟩)
    · exact absurd beyond (not_lt.mpr far)
    · simp [some, other] at one
  obtain ⟨some, other⟩ : n ≠ 0 ∧ (x == 1.0) = false := by simpa using one
  rw [if_neg one]
  by_cases large : 1024 ≤ binaryExponent m e * n
  · exact .inl ⟨.inr ⟨some, other, .inl large⟩, _, if_pos large⟩
  rw [if_neg large]
  cases held : isFinite (Float.pow x (Float.ofInt n)) with
  | false => exact .inl ⟨.inr ⟨some, other, .inr rfl⟩, _, if_neg (by simp)⟩
  | true =>
      refine .inr ⟨?_, _, if_pos rfl, isFinite_atLeastOne x held⟩
      rintro (far | ⟨-, -, far | unheld⟩)
      · exact absurd beyond (not_lt.mpr far)
      · exact large far
      · contradiction

theorem toFloat_int (n : Nat) : (int n).toFloat =
    if n < overflow then .ok (Float.ofInt n) else .error .hugeInteger := by
  by_cases small : n < overflow <;> simp [toFloat, ofInt?_eq, small]

theorem powInt_eq (i : Int) (n : Nat) : powInt i n = i ^ n := by
  unfold powInt
  split
  case isTrue one => rw [one, one_pow]
  case isFalse => rfl

/-- Products with a double are computed with doubles. -/
theorem mul_float_int (y : Float) (n : Nat) : (float y).mul (int n) =
    if n < overflow then .ok (float (y * Float.ofInt n)) else .error .hugeInteger := by
  change ((int n).toFloat.bind fun z => .ok (float (y * z))) = _
  rw [toFloat_int]
  split <;> rfl

theorem mul_int_float (n : Nat) (y : Float) : (int n).mul (float y) =
    if n < overflow then .ok (float (Float.ofInt n * y)) else .error .hugeInteger := by
  change ((int n).toFloat.bind fun z => .ok (float (z * y))) = _
  rw [toFloat_int]
  split <;> rfl

/-! ### A number times a power -/

/-- A number times a power of another. -/
def scaled (base factor : Number) (n : Nat) : Except ArithmeticError Number :=
  (factor.pow n).bind base.mul

/-- Whether a number times a power of another is computed from something that is out of range: the
power, or an integer that meets a double. Integers by themselves are never out of range. -/
def OutOfRange : Number → Number → Nat → Prop
  | .int _, .int _, _ => False
  | .float _, .int factor, n => overflow ≤ factor ^ n
  | .int base, .float factor, n => overflow ≤ base ∨ PowerOverflows factor n
  | .float _, .float factor, n => PowerOverflows factor n

theorem scaled_float_int_cases {y : Float} {i : Int} (finite : isFinite y = true) (positive : 1 ≤ i)
    (n : Nat) : OutOfRange (float y) (int i) n ∧ (∃ e, scaled (float y) (int i) n = .error e) ∨
      ¬ OutOfRange (float y) (int i) n ∧
        ∃ d v, scaled (float y) (int i) n = .ok d ∧ d.value? = some v := by
  obtain ⟨k, power⟩ := Int.eq_ofNat_of_zero_le (show 0 ≤ i ^ n by positivity)
  have product : scaled (float y) (int i) n =
      if k < overflow then .ok (float (y * Float.ofInt k)) else .error .hugeInteger := by
    rw [← mul_float_int, ← power, ← powInt_eq]
    rfl
  rw [product]
  change ((overflow : Int) ≤ i ^ n ∧ _) ∨ (¬ (overflow : Int) ≤ i ^ n ∧ _)
  rw [power, Nat.cast_le]
  by_cases small : k < overflow
  · obtain ⟨v, value⟩ :=
      Binary64.exists_value?_mul finite ((Binary64.isFinite_ofInt_iff k).mpr small)
    exact .inr ⟨not_le.mpr small, _, v, if_pos small, value⟩
  · exact .inl ⟨not_lt.mp small, _, if_neg small⟩

theorem scaled_float_cases {base : Number} {x : Float} (finite : base.IsFinite)
    (nonneg : base.lt (int 0) = false) (finite' : isFinite x = true)
    (least : AtMost (int 1) (float x)) (n : Nat) :
    OutOfRange base (float x) n ∧ (∃ e, scaled base (float x) n = .error e) ∨
      ¬ OutOfRange base (float x) n ∧
        ∃ d v, scaled base (float x) n = .ok d ∧ d.value? = some v := by
  have product : scaled base (float x) n = powFloat x n >>= fun z => base.mul (float z) := by
    change ((powFloat x n).map float).bind base.mul = _
    cases powFloat x n <;> rfl
  rw [product]
  rcases powFloat_cases finite' least n with ⟨far, e, fails⟩ | ⟨near, z, power, held⟩
  · rw [fails]
    refine .inl ⟨?_, e, rfl⟩
    cases base with
    | int j => exact .inr far
    | float y => exact far
  · rw [power, ok_bind]
    cases base with
    | float y =>
        obtain ⟨v, value⟩ := Binary64.exists_value?_mul (show isFinite y = true from finite) held
        exact .inr ⟨near, _, v, rfl, value⟩
    | int j =>
        obtain ⟨k, rfl⟩ := Int.eq_ofNat_of_zero_le (show 0 ≤ j by simpa [Number.lt] using nonneg)
        change (((overflow : Int) ≤ k ∨ PowerOverflows x n) ∧ ∃ e, (int k).mul (float z) = _) ∨
          ¬ ((overflow : Int) ≤ k ∨ PowerOverflows x n) ∧ ∃ d v, (int k).mul (float z) = _ ∧ _
        rw [mul_int_float, Nat.cast_le]
        by_cases small : k < overflow
        · obtain ⟨v, value⟩ :=
            Binary64.exists_value?_mul ((Binary64.isFinite_ofInt_iff k).mpr small) held
          exact .inr ⟨not_or.mpr ⟨not_le.mpr small, near⟩, _, v, if_pos small, value⟩
        · exact .inl ⟨.inl (not_lt.mp small), _, if_neg small⟩

/-- A number times a power of another is a number, unless it is computed from something that is out
of range. -/
theorem scaled_cases {base factor : Number} (finite : base.IsFinite)
    (nonneg : base.lt (int 0) = false) (finite' : factor.IsFinite)
    (least : factor.lt (int 1) = false) (n : Nat) :
    OutOfRange base factor n ∧ (∃ e, scaled base factor n = .error e) ∨
      ¬ OutOfRange base factor n ∧ ∃ d v, scaled base factor n = .ok d ∧ d.value? = some v := by
  cases factor with
  | float x =>
      obtain ⟨q, value⟩ := finite'.value
      exact scaled_float_cases finite nonneg finite' (atMost_of_not_lt value rfl least) n
  | int i =>
      cases base with
      | int j => exact .inr ⟨id, _, _, rfl, rfl⟩
      | float y => exact scaled_float_int_cases finite (by simpa [Number.lt] using least) n

/-! ### Growth -/

theorem powerOverflows_of_two_le {x : Float} (two : AtMost (.int 2) (.float x)) {n : Nat}
    (large : 1024 ≤ n) : PowerOverflows x n := by
  refine .inr ⟨by omega, ?_, .inl ⟨1, by simpa using two, by omega⟩⟩
  by_contra one
  have value := Binary64.value?_of_beq_one (by simpa using one)
  have less := (atMost_int_float_iff value).mp two
  norm_num at less

/-- Where a double takes part, the powers of a number of at least two grow out of range. -/
theorem outOfRange_of_two_le {base factor : Number} (two : AtMost (.int 2) factor)
    (double : ¬ (base.IsInt ∧ factor.IsInt)) {n : Nat} (large : 1024 ≤ n) :
    OutOfRange base factor n := by
  cases factor with
  | float x =>
      have far := powerOverflows_of_two_le two large
      cases base with
      | int j => exact .inr far
      | float y => exact far
  | int i =>
      cases base with
      | int j => exact absurd ⟨trivial, trivial⟩ double
      | float y =>
          calc (overflow : Int)
            _ ≤ 2 ^ (53 + 970 + 1) := by exact_mod_cast Binary64.overflow_le
            _ ≤ 2 ^ n := pow_le_pow_right₀ (by norm_num) large
            _ ≤ i ^ n := pow_le_pow_left₀ (by norm_num) (atMost_int_int_iff.mp two) n

/-- A number times the powers of another stays in range only if the powers are integers, and either
the number is an integer too or the powers do not grow. -/
theorem never_outOfRange_iff {base factor : Number} (least : factor.lt (.int 1) = false) :
    (∀ n, ¬ OutOfRange base factor n) ↔ factor.IsInt ∧ (base.IsInt ∨ factor = .int 1) := by
  constructor
  · intro never
    cases factor with
    | float x =>
        -- The exponent itself may be beyond all doubles.
        have far : PowerOverflows x overflow := .inl le_rfl
        cases base with
        | int j => exact absurd (.inr far) (never overflow)
        | float y => exact absurd far (never overflow)
    | int i =>
        refine ⟨trivial, ?_⟩
        cases base with
        | int j => exact .inl trivial
        | float y =>
            refine .inr (by_contra fun other => never 1024 (outOfRange_of_two_le ?_ ?_ le_rfl))
            · have positive : 1 ≤ i := by simpa [Number.lt] using least
              have grows : i ≠ 1 := fun one => other (congrArg int one)
              exact atMost_int_int_iff.mpr (by omega)
            · exact fun ints => ints.1
  · rintro ⟨int, whole | rfl⟩ n far
    · cases factor with
      | float x => exact int
      | int i =>
          cases base with
          | int j => exact far
          | float y => exact whole
    · cases base with
      | int j => exact far
      | float y =>
          have least : (overflow : Int) ≤ 1 ^ n := far
          have large : 1 < overflow :=
            (Nat.one_lt_two_pow (by norm_num)).trans_le Binary64.le_overflow
          rw [one_pow] at least
          omega

end Number

end EventStream
