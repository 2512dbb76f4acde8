import EventStream.Proofs.Number.Doubles
import Mathlib.Algebra.Order.Field.Power
import Mathlib.Algebra.Order.Field.Rat
import Mathlib.Tactic.Linarith
import Mathlib.Tactic.Ring

/-
# The order of numbers

Numbers are integers and doubles, and they are compared by their exact values (`Number.lt_iff`): a
value is rational, or lies beyond all rational numbers on either side, and a NaN has none. Doubles
are compared by exponents first and mantissas then, which is the order of their values because a
mantissa has its 53 bits unless the exponent is the least.
-/

namespace EventStream

namespace Binary64

open Float.Model
open Float.Model.UnpackedFloat (Sign)

/-! ## The order of doubles -/

/-- What numbers are worth: the rational numbers, and one value beyond them on each side. -/
abbrev Extent := WithBot (WithTop ℚ)

/-- A rational number among the values. -/
def Extent.ofRat (q : ℚ) : Extent := ((q : WithTop ℚ) : WithBot (WithTop ℚ))

@[simp] theorem Extent.ofRat_lt_ofRat {q r : ℚ} : Extent.ofRat q < Extent.ofRat r ↔ q < r := by
  simp [Extent.ofRat]

theorem Extent.ofRat_inj {q r : ℚ} : Extent.ofRat q = Extent.ofRat r ↔ q = r := by
  simp [Extent.ofRat]

@[simp] theorem Extent.ofRat_lt_top (q : ℚ) : Extent.ofRat q < ⊤ := by
  exact WithBot.coe_lt_coe.mpr (WithTop.coe_lt_top q)

@[simp] theorem Extent.bot_lt_ofRat (q : ℚ) : ⊥ < Extent.ofRat q := WithBot.bot_lt_coe _

/-- The exact value of a dyadic number. -/
def Dyadic.value (d : Dyadic) : ℚ := d.mantissa * 2 ^ d.exponent

/-- The value of a double. A NaN has none. -/
def value? (x : Float) : Option Extent :=
  match dyadic? x with
  | some d => some (.ofRat d.value)
  | none => if 0.0 < x then some ⊤ else if x < 0.0 then some ⊥ else none

theorem lt_iff_compare (x y : Float) :
    x < y ↔ x.toModel.unpack.compare y.toModel.unpack = some .lt := by
  change decide (UnpackedFloat.lt _ _ = true) = true ↔ _
  simp [UnpackedFloat.lt]

/-- The value of an unpacked double. -/
def worth : UnpackedFloat → Option Extent
  | .notANumber => none
  | .infinity .positive => some ⊤
  | .infinity .negative => some ⊥
  | .zero _ => some (.ofRat 0)
  | .finite s m e _ => some (.ofRat (s.apply m * 2 ^ e))

theorem apply_negative (m : Nat) (e : Int) :
    ((Sign.negative.apply m : Int) * 2 ^ e : ℚ) = -(m * 2 ^ e) := by
  simp [Sign.apply]

theorem apply_positive (m : Nat) (e : Int) :
    ((Sign.positive.apply m : Int) * 2 ^ e : ℚ) = m * 2 ^ e := by
  simp [Sign.apply]

theorem value?_eq (x : Float) : value? x = worth x.toModel.unpack := by
  have zero : (0.0 : Float).toModel.unpack = .zero .positive := rfl
  unfold value?
  have known := parts x
  generalize unpacked : x.toModel.unpack = u at known
  cases known with
  | infinity s none =>
      simp only [dyadic?, none, Option.map_none, lt_iff_compare, zero, unpacked]
      cases s <;> rfl
  | notANumber none =>
      simp only [dyadic?, none, Option.map_none, lt_iff_compare, zero, unpacked]
      rfl
  | zero s magnitude =>
      change _ = some (Extent.ofRat 0)
      simp [dyadic?, magnitude, Dyadic.value]
  | @finite s m e pos magnitude negative =>
      change _ = some (Extent.ofRat (s.apply m * 2 ^ e))
      simp only [dyadic?, magnitude, Option.map_some, Dyadic.value]
      cases s <;> simp [negative, Sign.apply]

/-- Of two positive doubles the one with the greater exponent is greater. -/
theorem mul_zpow_lt {m n : Nat} {e f : Int} (small : m < 2 ^ 53) (full : 2 ^ 52 ≤ n ∨ f = -1074)
    (least : -1074 ≤ e) (less : e < f ∨ e = f ∧ m < n) : (m : ℚ) * 2 ^ e < n * 2 ^ f := by
  rcases less with less | ⟨rfl, less⟩
  · have full : (2 ^ 52 : ℚ) ≤ n := by
      exact_mod_cast full.resolve_right (by omega)
    have small : (m : ℚ) < 2 ^ 53 := by exact_mod_cast small
    have next : (2 : ℚ) ^ (e + 1) ≤ 2 ^ f := zpow_le_zpow_right₀ (by norm_num) less
    calc (m : ℚ) * 2 ^ e
      _ < 2 ^ 53 * 2 ^ e := by gcongr
      _ = 2 ^ 52 * 2 ^ (e + 1) := by rw [zpow_add_one₀ (by norm_num)]; ring
      _ ≤ n * 2 ^ f := by gcongr
  · have less : (m : ℚ) < n := by exact_mod_cast less
    gcongr

theorem mul_zpow_lt_iff {m n : Nat} {e f : Int} (small : m < 2 ^ 53) (small' : n < 2 ^ 53)
    (full : 2 ^ 52 ≤ m ∨ e = -1074) (full' : 2 ^ 52 ≤ n ∨ f = -1074) (least : -1074 ≤ e)
    (least' : -1074 ≤ f) : (m : ℚ) * 2 ^ e < n * 2 ^ f ↔ e < f ∨ e = f ∧ m < n := by
  refine ⟨fun less => ?_, mul_zpow_lt small full' least⟩
  by_contra other
  rcases lt_trichotomy e f with low | rfl | high
  · exact other (.inl low)
  · rcases lt_trichotomy m n with low | rfl | high
    · exact other (.inr ⟨rfl, low⟩)
    · exact less.false
    · exact less.asymm (mul_zpow_lt small' full least' (.inr ⟨rfl, high⟩))
  · exact less.asymm (mul_zpow_lt small' full least' (.inl high))

theorem then_eq_lt_iff {m n : Nat} {e f : Int} :
    (compare e f).then (compare m n) = .lt ↔ e < f ∨ e = f ∧ m < n := by
  rw [Ordering.then_eq_lt, compare_lt_iff_lt, compare_eq_iff_eq, compare_lt_iff_lt]

theorem then_eq_gt_iff {m n : Nat} {e f : Int} :
    (compare e f).then (compare m n) = .gt ↔ f < e ∨ f = e ∧ n < m := by
  rw [Ordering.then_eq_gt, compare_gt_iff_gt, compare_eq_iff_eq, compare_gt_iff_gt, eq_comm]

theorem compare_finite_iff {s t : Sign} {m n : Nat} {e f : Int} (pos : 0 < m) (pos' : 0 < n)
    (small : m < 2 ^ 53) (small' : n < 2 ^ 53) (full : 2 ^ 52 ≤ m ∨ e = -1074)
    (full' : 2 ^ 52 ≤ n ∨ f = -1074) (least : -1074 ≤ e) (least' : -1074 ≤ f) :
    (UnpackedFloat.finite s m e pos).compare (.finite t n f pos') = some .lt ↔
      (s.apply m * 2 ^ e : ℚ) < t.apply n * 2 ^ f := by
  have above : (0 : ℚ) < m * 2 ^ e := by positivity
  have above' : (0 : ℚ) < n * 2 ^ f := by positivity
  cases s <;> cases t
  case negative.negative =>
    change some ((compare e f).then (compare m n)).swap = some Ordering.lt ↔ _
    rw [Option.some_inj, Ordering.swap_eq_lt, then_eq_gt_iff, apply_negative, apply_negative,
      neg_lt_neg_iff]
    exact (mul_zpow_lt_iff small' small full' full least' least).symm
  case negative.positive =>
    rw [apply_negative, apply_positive]
    exact iff_of_true rfl (by linarith)
  case positive.negative =>
    rw [apply_positive, apply_negative]
    exact iff_of_false nofun (by linarith)
  case positive.positive =>
    change some ((compare e f).then (compare m n)) = some Ordering.lt ↔ _
    rw [Option.some_inj, then_eq_lt_iff, apply_positive, apply_positive]
    exact (mul_zpow_lt_iff small small' full full' least least').symm

/-- Doubles are in the order of their values. -/
theorem lt_iff {x y : Float} {v w : Extent} (value : value? x = some v)
    (value' : value? y = some w) : x < y ↔ v < w := by
  rw [value?_eq] at value value'
  rw [lt_iff_compare]
  have known := parts x
  have known' := parts y
  generalize x.toModel.unpack = a at known value ⊢
  generalize y.toModel.unpack = b at known' value' ⊢
  cases known with
  | notANumber => contradiction
  | infinity s =>
      cases known' with
      | notANumber => contradiction
      | infinity t =>
          cases s <;> cases t <;> obtain rfl := Option.some.inj value <;>
            obtain rfl := Option.some.inj value'
          · exact iff_of_false nofun (lt_irrefl _)
          · exact iff_of_true rfl bot_lt_top
          · exact iff_of_false nofun not_lt_bot
          · exact iff_of_false nofun (lt_irrefl _)
      | zero t | @finite t =>
          obtain rfl := Option.some.inj value'
          cases s <;> obtain rfl := Option.some.inj value
          · exact iff_of_true rfl (Extent.bot_lt_ofRat _)
          · exact iff_of_false nofun (Extent.ofRat_lt_top _).asymm
  | zero s =>
      obtain rfl := Option.some.inj value
      cases known' with
      | notANumber => contradiction
      | infinity t =>
          cases t <;> obtain rfl := Option.some.inj value'
          · exact iff_of_false nofun not_lt_bot
          · exact iff_of_true rfl (Extent.ofRat_lt_top _)
      | zero t =>
          obtain rfl := Option.some.inj value'
          exact iff_of_false nofun (lt_irrefl _)
      | @finite t n f pos =>
          have above : (0 : ℚ) < n * 2 ^ f := by positivity
          obtain rfl := Option.some.inj value'
          rw [Extent.ofRat_lt_ofRat]
          cases t with
          | negative =>
              rw [apply_negative]
              exact iff_of_false nofun (by linarith)
          | positive =>
              rw [apply_positive]
              exact iff_of_true rfl above
  | @finite s m e pos magnitude negative small full least =>
      obtain rfl := Option.some.inj value
      cases known' with
      | notANumber => contradiction
      | infinity t =>
          cases t <;> obtain rfl := Option.some.inj value'
          · exact iff_of_false (by cases s <;> nofun) (Extent.bot_lt_ofRat _).asymm
          · exact iff_of_true (by cases s <;> rfl) (Extent.ofRat_lt_top _)
      | zero t =>
          have above : (0 : ℚ) < m * 2 ^ e := by positivity
          obtain rfl := Option.some.inj value'
          rw [Extent.ofRat_lt_ofRat]
          cases s with
          | negative =>
              rw [apply_negative]
              exact iff_of_true rfl (by linarith)
          | positive =>
              rw [apply_positive]
              exact iff_of_false nofun above.asymm
      | @finite t n f pos' magnitude' negative' small' full' least' =>
          obtain rfl := Option.some.inj value'
          rw [Extent.ofRat_lt_ofRat]
          exact compare_finite_iff pos pos' small small' full full' least least'

theorem exists_value?_iff (x : Float) :
    (∃ v, value? x = some v) ↔ x.toModel.unpack ≠ .notANumber := by
  rw [value?_eq]
  cases x.toModel.unpack with
  | notANumber => exact iff_of_false nofun fun other => other rfl
  | infinity s => cases s <;> exact iff_of_true ⟨_, rfl⟩ nofun
  | zero | finite => exact iff_of_true ⟨_, rfl⟩ nofun

theorem exists_value?_of_isFinite {x : Float} (finite : isFinite x = true) :
    ∃ q : ℚ, value? x = some (.ofRat q) := by
  obtain ⟨magnitude, known⟩ := Option.isSome_iff_exists.mp finite
  simp [value?, dyadic?, known]

theorem beq_iff_compare (x y : Float) :
    (x == y) = true ↔ x.toModel.unpack.compare y.toModel.unpack = some .eq := by
  change (x.toModel.unpack.compare y.toModel.unpack == some .eq) = true ↔ _
  rw [beq_iff_eq]

/-- A double that equals one is worth one. -/
theorem value?_of_beq_one {x : Float} (one : (x == 1.0) = true) : value? x = some (.ofRat 1) := by
  have unit : (1.0 : Float).toModel.unpack = .finite .positive (2 ^ 52) (-52) (by decide) := rfl
  rw [beq_iff_compare, unit] at one
  rw [value?_eq]
  cases unpacked : x.toModel.unpack with
  | notANumber | zero =>
      rw [unpacked] at one
      exact absurd one nofun
  | infinity s =>
      rw [unpacked] at one
      cases s <;> exact absurd one nofun
  | finite s m e pos =>
      rw [unpacked] at one
      cases s with
      | negative => exact absurd one nofun
      | positive =>
          change some ((compare e (-52)).then (compare m (2 ^ 52))) = some Ordering.eq at one
          rw [Option.some_inj, Ordering.then_eq_eq, compare_eq_iff_eq, compare_eq_iff_eq] at one
          obtain ⟨rfl, rfl⟩ := one
          change some (Extent.ofRat _) = _
          rw [apply_positive]
          norm_num

/-- A product of finite doubles is a number, if perhaps an infinite one. -/
theorem exists_value?_mul {x y : Float} (finite : isFinite x = true) (finite' : isFinite y = true) :
    ∃ v, value? (x * y) = some v := by
  rw [exists_value?_iff]
  change repacked (UnpackedFloat.mul .binary64 x.toModel.unpack y.toModel.unpack) ≠ _
  rw [isFinite_iff] at finite finite'
  obtain ⟨j, bounded⟩ := bounded_mul finite finite'
  exact repacked_ne_notANumber bounded

/-! ## Integers against doubles -/

theorem compareInt_iff (d : Dyadic) (i : Int) :
    (d.compareInt i = .lt ↔ d.value < i) ∧ (d.compareInt i = .gt ↔ i < d.value) := by
  unfold Dyadic.compareInt Dyadic.value
  split
  case isTrue nonneg =>
    obtain ⟨k, exponent⟩ := Int.eq_ofNat_of_zero_le nonneg
    rw [exponent, Int.toNat_natCast, zpow_natCast]
    change (compare (d.mantissa * 2 ^ k) i = .lt ↔ _) ∧ (compare (d.mantissa * 2 ^ k) i = .gt ↔ _)
    rw [compare_lt_iff_lt, compare_gt_iff_gt]
    exact ⟨by exact_mod_cast Iff.rfl, by exact_mod_cast Iff.rfl⟩
  case isFalse negative =>
    obtain ⟨k, exponent⟩ := Int.eq_ofNat_of_zero_le (Int.neg_nonneg.mpr (not_le.mp negative).le)
    rw [exponent, Int.toNat_natCast, ← neg_neg d.exponent, exponent, zpow_neg, zpow_natCast]
    change (compare d.mantissa (i * 2 ^ k) = .lt ↔ _) ∧ (compare d.mantissa (i * 2 ^ k) = .gt ↔ _)
    rw [compare_lt_iff_lt, compare_gt_iff_gt, ← div_eq_mul_inv, div_lt_iff₀ (by positivity),
      lt_div_iff₀ (by positivity)]
    exact ⟨by exact_mod_cast Iff.rfl, by exact_mod_cast Iff.rfl⟩

theorem value?_zero : value? 0.0 = some (.ofRat 0) := value?_eq 0.0

/-- A double whose value is not rational is beyond all rational numbers. -/
theorem infinite_cases {x : Float} {v : Extent} (value : value? x = some v)
    (infinite : dyadic? x = none) : v = ⊤ ∨ v = ⊥ := by
  simp only [value?, infinite] at value
  split at value
  · exact .inl (Option.some.inj value).symm
  · split at value
    · exact .inr (Option.some.inj value).symm
    · contradiction

end Binary64

open Binary64 (Extent)

namespace Number

/-- The value of a number. A NaN has none. -/
def value? : Number → Option Extent
  | .int i => some (.ofRat i)
  | .float x => Binary64.value? x

theorem intLtFloat_iff {i : Int} {x : Float} {v : Extent} (value : Binary64.value? x = some v) :
    intLtFloat i x = true ↔ .ofRat i < v := by
  unfold intLtFloat
  cases dyadic : Binary64.dyadic? x with
  | some d =>
      obtain rfl : v = .ofRat d.value := by simpa [Binary64.value?, dyadic, eq_comm] using value
      simp [(Binary64.compareInt_iff d i).2]
  | none =>
      change decide ((0.0 : Float) < x) = true ↔ _
      rw [decide_eq_true_iff, Binary64.lt_iff Binary64.value?_zero value]
      rcases Binary64.infinite_cases value dyadic with rfl | rfl <;> simp

theorem floatLtInt_iff {i : Int} {x : Float} {v : Extent} (value : Binary64.value? x = some v) :
    floatLtInt x i = true ↔ v < .ofRat i := by
  unfold floatLtInt
  cases dyadic : Binary64.dyadic? x with
  | some d =>
      obtain rfl : v = .ofRat d.value := by simpa [Binary64.value?, dyadic, eq_comm] using value
      simp [(Binary64.compareInt_iff d i).1]
  | none =>
      change decide (x < (0.0 : Float)) = true ↔ _
      rw [decide_eq_true_iff, Binary64.lt_iff value Binary64.value?_zero]
      rcases Binary64.infinite_cases value dyadic with rfl | rfl <;> simp

/-- Numbers are in the order of their values. -/
theorem lt_iff {a b : Number} {v w : Extent} (value : a.value? = some v)
    (value' : b.value? = some w) : a.lt b = true ↔ v < w := by
  cases a with
  | int i =>
      obtain rfl := Option.some.inj value
      cases b with
      | int j =>
          obtain rfl := Option.some.inj value'
          simp [lt]
      | float y => exact intLtFloat_iff value'
  | float x =>
      cases b with
      | int j =>
          obtain rfl := Option.some.inj value'
          exact floatLtInt_iff value
      | float y => exact decide_eq_true_iff.trans (Binary64.lt_iff value value')

end Number

end EventStream
