import EventStream.Proofs.Number.Powers
import EventStream.Proofs.Results

/-
# Numbers that are not negative

A check that a number is not less than another lets every NaN pass. So what follows from such
checks is said of all numbers that pass them: they are kept by products and powers, and next to that
stands how a NaN arises, which is that it is handed on or that zero is multiplied by infinity
(`mul_of_not_lt`, `pow_of_not_lt`). Rounding changes no sign, and it makes a zero only below the
least double, so an integer is zero as a double only if it is zero.
-/

namespace EventStream

namespace Binary64

open Float.Model
open Float.Model.UnpackedFloat (Sign unpackSign packComponents roundWithAccuracy)

/-! ## Signs of doubles -/

/-- Doubles of a sign; a NaN counts as having either. -/
def HasSign (s : Sign) : UnpackedFloat → Prop
  | .infinity t | .zero t | .finite t _ _ _ => t = s
  | .notANumber => True

theorem unpackSign_packComponents (s : Sign) (e : BitVec 11) (m : BitVec 52) :
    @unpackSign .binary64 (packComponents .binary64 s e m) = s.toBitVec := by
  apply BitVec.eq_of_getLsbD_eq
  intro i low
  obtain rfl : i = 0 := by omega
  change (((packComponents .binary64 s e m).extractLsb 63 63).cast _).getLsbD 0 = _
  unfold packComponents
  simp only [BitVec.getLsbD_cast, BitVec.getLsbD_extractLsb, BitVec.getLsbD_append]
  simp

theorem hasSign_unpack (s : Sign) (e : BitVec 11) (m : BitVec 52) :
    HasSign s (UnpackedFloat.unpack .binary64 (packComponents .binary64 s e m)) := by
  have sign : Sign.ofBitVec (@unpackSign .binary64 (packComponents .binary64 s e m)) = s := by
    rw [unpackSign_packComponents]
    cases s <;> rfl
  exact unpack_cases _ (fun _ => sign) (fun _ => trivial) (fun _ _ => sign) (fun _ _ => sign)
    fun _ _ _ => sign

theorem repacked_notANumber : repacked .notANumber = .notANumber := rfl

theorem repacked_infinity (s : Sign) : repacked (.infinity s) = .infinity s := by
  cases s <;> rfl

theorem repacked_zero (s : Sign) : repacked (.zero s) = .zero s := by
  cases s <;> rfl

/-- Packing keeps the sign. -/
theorem hasSign_repacked {s : Sign} {u : UnpackedFloat} (sign : HasSign s u) :
    HasSign s (repacked u) := by
  cases u with
  | notANumber => trivial
  | infinity t => rwa [repacked_infinity]
  | zero t => rwa [repacked_zero]
  | finite t m e pos =>
      obtain rfl : t = s := sign
      rw [repacked, pack_finite]
      split
      · exact hasSign_unpack ..
      · split <;> exact hasSign_unpack ..

/-- Rounding keeps the sign. -/
theorem hasSign_roundWithAccuracy (s : Sign) (m : Nat) (e : Int) :
    HasSign s (roundWithAccuracy .binary64 s m e .exact) := by
  rw [roundWithAccuracy_eq]
  exact shaped_cases s _ _ rfl fun _ => rfl

theorem worth_of_hasSign {u : UnpackedFloat} (sign : HasSign .positive u)
    (known : u ≠ .notANumber) : ∃ v, worth u = some v ∧ .ofRat 0 ≤ v := by
  cases u with
  | notANumber => contradiction
  | infinity s =>
      obtain rfl : s = .positive := sign
      exact ⟨⊤, rfl, le_top⟩
  | zero s => exact ⟨_, rfl, le_rfl⟩
  | finite s m e pos =>
      obtain rfl : s = .positive := sign
      refine ⟨_, rfl, Number.ofRat_le_ofRat.mpr ?_⟩
      simp only [Sign.apply, Int.cast_natCast]
      positivity

/-- What a double that is not negative can be, and what it is worth. -/
theorem nonneg_cases {u : UnpackedFloat} {v : Extent} (value : worth u = some v)
    (nonneg : .ofRat 0 ≤ v) : (∃ s, u = .zero s ∧ v = .ofRat 0) ∨
      u = .infinity .positive ∧ v = ⊤ ∨
      ∃ m e pos, u = .finite .positive m e pos ∧ v ≠ .ofRat 0 ∧ v ≠ ⊤ := by
  cases u with
  | notANumber => contradiction
  | zero s => exact .inl ⟨s, rfl, (Option.some.inj value).symm⟩
  | infinity s =>
      cases s with
      | positive => exact .inr (.inl ⟨rfl, (Option.some.inj value).symm⟩)
      | negative =>
          obtain rfl := Option.some.inj value
          exact absurd nonneg (not_le.mpr (Extent.bot_lt_ofRat 0))
  | finite s m e pos =>
      obtain rfl := Option.some.inj value
      have power : (0 : ℚ) < 2 ^ e := by positivity
      have some : (0 : ℚ) < m := by exact_mod_cast pos
      rw [Number.ofRat_le_ofRat] at nonneg
      cases s with
      | negative =>
          simp only [Sign.apply, Int.cast_neg, Int.cast_natCast] at nonneg
          nlinarith [mul_pos some power]
      | positive =>
          refine .inr (.inr ⟨m, e, pos, rfl, ?_, (Extent.ofRat_lt_top _).ne⟩)
          exact (Extent.ofRat_lt_ofRat.mpr (by simpa [Sign.apply] using mul_pos some power)).ne'

/-- The product of doubles that are not negative is not negative either, or zero was multiplied by
infinity. -/
theorem worth_mul {u w : UnpackedFloat} {v v' : Extent} (value : worth u = some v)
    (value' : worth w = some v') (nonneg : .ofRat 0 ≤ v) (nonneg' : .ofRat 0 ≤ v') :
    (v = .ofRat 0 ∧ v' = ⊤ ∨ v = ⊤ ∧ v' = .ofRat 0) ∧
        worth (repacked (UnpackedFloat.mul .binary64 u w)) = none ∨
      ¬ (v = .ofRat 0 ∧ v' = ⊤ ∨ v = ⊤ ∧ v' = .ofRat 0) ∧
        ∃ r, worth (repacked (UnpackedFloat.mul .binary64 u w)) = some r ∧ .ofRat 0 ≤ r := by
  have finite : Extent.ofRat 0 ≠ ⊤ := (Extent.ofRat_lt_top 0).ne
  have made {u w p : UnpackedFloat} {r : Option Extent}
      (product : UnpackedFloat.mul .binary64 u w = p) (value : worth (repacked p) = r) :
      worth (repacked (UnpackedFloat.mul .binary64 u w)) = r := by
    rw [product, value]
  have nothing (s : Sign) : worth (repacked (.zero s)) = some (.ofRat 0) := by
    rw [repacked_zero]
    rfl
  have infinite : worth (repacked (.infinity .positive)) = some ⊤ := rfl
  have unknown : worth (repacked .notANumber) = none := rfl
  rcases nonneg_cases value nonneg with
      ⟨s, rfl, rfl⟩ | ⟨rfl, rfl⟩ | ⟨m, e, pos, rfl, some, small⟩ <;>
    rcases nonneg_cases value' nonneg' with
      ⟨t, rfl, rfl⟩ | ⟨rfl, rfl⟩ | ⟨n, f, pos', rfl, some', small'⟩
  case inl.inl => exact .inr ⟨by simp [finite], _, made rfl (nothing _), le_rfl⟩
  case inl.inr.inl => exact .inl ⟨by simp, made rfl unknown⟩
  case inl.inr.inr => exact .inr ⟨by simp [small', finite], _, made rfl (nothing _), le_rfl⟩
  case inr.inl.inl => exact .inl ⟨by simp, made rfl unknown⟩
  case inr.inl.inr.inl =>
    exact .inr ⟨by simp [finite.symm], ⊤, made rfl infinite, le_top⟩
  case inr.inl.inr.inr =>
    exact .inr ⟨by simp [some', finite.symm], ⊤, made rfl infinite, le_top⟩
  case inr.inr.inl => exact .inr ⟨by simp [small, finite], _, made rfl (nothing _), le_rfl⟩
  case inr.inr.inr.inl =>
    exact .inr ⟨by simp [some, finite.symm], ⊤, made rfl infinite, le_top⟩
  case inr.inr.inr.inr =>
    refine .inr ⟨by simp [some, small], ?_⟩
    exact worth_of_hasSign (hasSign_repacked (hasSign_roundWithAccuracy ..))
      (repacked_ne_notANumber (bounded_roundWithAccuracy .positive (m * n) (e + f)))

/-! ## Doubles that are not zero -/

/-- A number of doubles' own length is not packed as zero. -/
theorem repacked_ne_zero {s t : Sign} {m : Nat} {e : Int} (pos : 0 < m) (short : m < 2 ^ 53)
    (least : -1074 ≤ e) : repacked (.finite s m e pos) ≠ .zero t := by
  have some (a : BitVec 11) (b : BitVec 52) (other : a ≠ 0 ∨ b ≠ 0) :
      UnpackedFloat.unpack .binary64 (packComponents .binary64 s a b) ≠ .zero t := by
    refine unpack_cases _ (fun _ => nofun) (fun _ => nofun) (fun tiny empty => ?_)
      (fun _ _ => nofun) fun _ _ _ => nofun
    rw [UnpackedFloat.unpackExponent_packComponents] at tiny
    rw [UnpackedFloat.unpackMantissa_packComponents] at empty
    exact absurd empty (other.resolve_left (not_not.mpr tiny))
  rw [repacked, pack_finite]
  split
  · exact some _ _ (.inl (by decide))
  case isFalse fits =>
    split
    case isTrue =>
      refine some _ _ (.inl fun zero => ?_)
      have number := congrArg BitVec.toNat zero
      simp at number
      omega
    case isFalse long =>
      refine some _ _ (.inr fun zero => ?_)
      have number := congrArg BitVec.toNat zero
      have small : m < 2 ^ 52 := by
        have log : m.log2 < 53 := (Nat.log2_lt pos.ne').mpr short
        refine (Nat.log2_lt pos.ne').mp ?_
        have : m.log2 + 1 ≠ 53 := long
        omega
      rw [BitVec.toNat_ofNat, Nat.mod_eq_of_lt small] at number
      exact pos.ne' number

/-- Rounding makes a zero only of what is below the least double. -/
theorem repacked_round_ne_zero {s t : Sign} {m : Nat} {e : Int} (pos : 0 < m)
    (least : -1074 ≤ e + m.log2) :
    repacked (roundWithAccuracy .binary64 s m e .exact) ≠ .zero t := by
  rw [roundWithAccuracy_eq]
  have fits : excess m e ≤ m.log2 := by
    unfold excess
    omega
  have some : 1 ≤ rounded m (excess m e) := by
    refine le_trans ?_ (le_rounded m _)
    rw [Nat.le_div_iff_mul_le (Nat.two_pow_pos _), one_mul]
    exact (Nat.pow_le_pow_right (by decide) fits).trans (Nat.log2_self_le pos.ne')
  have lowest : -1074 ≤ e + excess m e := by
    unfold excess
    omega
  generalize rounded m (excess m e) = r at some ⊢
  generalize e + (excess m e : Int) = f at lowest ⊢
  have long : excess r f = r.log2 - 52 := by
    unfold excess
    omega
  rw [long]
  have high : 0 < r / 2 ^ (r.log2 - 52) := by
    rw [Nat.div_pos_iff]
    exact ⟨Nat.two_pow_pos _, (Nat.pow_le_pow_right (by decide) (Nat.sub_le ..)).trans
      (Nat.log2_self_le (by omega))⟩
  have low : r / 2 ^ (r.log2 - 52) < 2 ^ 53 := by
    refine Nat.div_lt_of_lt_mul ?_
    rw [← pow_add]
    exact Nat.lt_log2_self.trans_le (Nat.pow_le_pow_right (by decide) (by omega))
  rw [shaped_of_pos _ _ high]
  exact repacked_ne_zero high low (by omega)

/-- Neither zero nor negative; a NaN counts as well. -/
structure IsPositive (u : UnpackedFloat) : Prop where
  sign : HasSign .positive u
  other (t : Sign) : u ≠ .zero t

theorem isPositive_round {m : Nat} {e : Int} (pos : 0 < m) (least : -1074 ≤ e + m.log2) :
    IsPositive (repacked (roundWithAccuracy .binary64 .positive m e .exact)) where
  sign := hasSign_repacked (hasSign_roundWithAccuracy ..)
  other _ := repacked_round_ne_zero pos least

theorem isPositive_toFloat {n : Nat} (pos : 0 < n) (small : n < 2 ^ 53) :
    IsPositive n.toUInt64.toFloat.toModel.unpack := by
  have length : (n <<< (52 - n.log2)).log2 = 52 := by
    have short : n.log2 < 53 := (Nat.log2_lt pos.ne').mpr small
    rw [Nat.shiftLeft_eq, log2_mul_two_pow pos.ne']
    omega
  rw [unpack_toFloat pos small]
  refine isPositive_round (Nat.pos_of_ne_zero fun zero => ?_) (by omega)
  rw [zero, Nat.log2_zero] at length
  contradiction

theorem isPositive_mul_one {x : Float} {k : Int} (bounded : Bounded k x.toModel.unpack)
    (positive : IsPositive x.toModel.unpack) : IsPositive (x * 1.0).toModel.unpack := by
  have one : (1.0 : Float).toModel.unpack = .finite .positive (2 ^ 52) (-52) (by decide) := rfl
  change IsPositive (repacked
    (UnpackedFloat.mul .binary64 x.toModel.unpack (1.0 : Float).toModel.unpack))
  rw [one]
  have known := parts x
  generalize x.toModel.unpack = u at known positive bounded ⊢
  cases known with
  | infinity | notANumber => contradiction
  | zero s => exact absurd rfl (positive.other s)
  | @finite s m e pos magnitude negative small full least =>
      obtain rfl : s = .positive := positive.sign
      refine isPositive_round (by positivity) ?_
      rw [log2_mul_two_pow pos.ne']
      omega

/-- Integers that are positive are positive as doubles. -/
theorem isPositive_ofInt {n : Nat} (pos : 0 < n) : IsPositive (Float.ofInt n).toModel.unpack := by
  rcases Nat.lt_or_ge n (2 ^ 53) with small | large
  · rw [ofInt_of_small small]
    exact isPositive_mul_one (bounded_toFloat small) (isPositive_toFloat pos small)
  · rw [unpack_ofInt_of_large large]
    refine isPositive_round (by positivity) ?_
    rw [log2_mul_two_pow pos.ne']
    omega

/-! ## What doubles are worth -/

theorem magnitude?_eq_none_iff {x : Float} :
    magnitude? x = none ↔ x.isNaN = true ∨ x.isInf = true := by
  have known := parts x
  change _ ↔ x.toModel.unpack.isNaN = true ∨ x.toModel.unpack.isInf = true
  generalize x.toModel.unpack = u at known ⊢
  cases known with
  | infinity _ none => exact iff_of_true none (.inr rfl)
  | notANumber none => exact iff_of_true none (.inl rfl)
  | zero _ some | finite _ some => exact iff_of_false (by simp [some]) (not_or.mpr ⟨nofun, nofun⟩)

/-- The doubles without an integer part. -/
theorem truncate?_eq_none_iff {x : Float} :
    truncate? x = none ↔ x.isNaN = true ∨ x.isInf = true := by
  rw [← magnitude?_eq_none_iff]
  simp [truncate?, dyadic?]

theorem isNaN_of_isInf {x : Float} (infinite : x.isInf = true) : x.isNaN = false := by
  change x.toModel.unpack.isInf = true at infinite
  change x.toModel.unpack.isNaN = false
  cases unpacked : x.toModel.unpack with
  | infinity s => rfl
  | _ => rw [unpacked] at infinite; contradiction

theorem value?_eq_none_iff (x : Float) : value? x = none ↔ x.isNaN = true := by
  rw [value?_eq]
  change _ ↔ x.toModel.unpack.isNaN = true
  cases x.toModel.unpack with
  | notANumber => exact iff_of_true rfl rfl
  | infinity s => cases s <;> exact iff_of_false nofun nofun
  | _ => exact iff_of_false nofun nofun

theorem value?_eq_top_or_bot_iff (x : Float) :
    value? x = some ⊤ ∨ value? x = some ⊥ ↔ x.isInf = true := by
  rw [value?_eq]
  change _ ↔ x.toModel.unpack.isInf = true
  cases x.toModel.unpack with
  | infinity s =>
      cases s with
      | negative => exact iff_of_true (.inr rfl) rfl
      | positive => exact iff_of_true (.inl rfl) rfl
  | finite | zero =>
      refine iff_of_false (not_or.mpr ⟨fun top => ?_, fun bot => ?_⟩) nofun
      · exact (Extent.ofRat_lt_top _).ne (Option.some.inj top)
      · exact (Extent.bot_lt_ofRat _).ne' (Option.some.inj bot)
  | notANumber => exact iff_of_false (not_or.mpr ⟨nofun, nofun⟩) nofun

/-- A double equals zero, with either sign, if it is worth zero. -/
theorem value?_eq_zero_iff (x : Float) : value? x = some (.ofRat 0) ↔ (x == 0.0) = true := by
  have zero : (0.0 : Float).toModel.unpack = .zero .positive := rfl
  rw [value?_eq, beq_iff_compare, zero]
  cases x.toModel.unpack with
  | notANumber => exact iff_of_false (by rintro ⟨⟩) (by rintro ⟨⟩)
  | zero s => exact iff_of_true rfl rfl
  | infinity s =>
      cases s with
      | negative =>
          exact iff_of_false (fun same => (Extent.bot_lt_ofRat 0).ne (Option.some.inj same))
            (by rintro ⟨⟩)
      | positive =>
          exact iff_of_false (fun same => (Extent.ofRat_lt_top 0).ne' (Option.some.inj same))
            (by rintro ⟨⟩)
  | finite s m e pos =>
      have value : (s.apply m : ℚ) * 2 ^ e ≠ 0 := by
        have power : (2 : ℚ) ^ e ≠ 0 := by positivity
        cases s <;> simp [Sign.apply, pos.ne', power]
      exact iff_of_false (fun same => value (Extent.ofRat_inj.mp (Option.some.inj same)))
        (by cases s <;> rintro ⟨⟩)

theorem unpack_eq_notANumber {x : Float} (unknown : value? x = none) :
    x.toModel.unpack = .notANumber := by
  by_contra known
  obtain ⟨v, value⟩ := (exists_value?_iff x).mpr known
  rw [unknown] at value
  contradiction

/-- A NaN is handed on by products. -/
theorem value?_mul_eq_none {x y : Float} (unknown : value? x = none ∨ value? y = none) :
    value? (x * y) = none := by
  have product : UnpackedFloat.mul .binary64 x.toModel.unpack y.toModel.unpack = .notANumber := by
    rcases unknown with unknown | unknown
    · rw [unpack_eq_notANumber unknown]
      rfl
    · rw [unpack_eq_notANumber unknown]
      cases x.toModel.unpack <;> rfl
  rw [value?_eq]
  change worth (repacked (UnpackedFloat.mul .binary64 x.toModel.unpack y.toModel.unpack)) = none
  rw [product]
  rfl

/-- The product of doubles that are not negative is not negative, or zero was multiplied by
infinity. -/
theorem value?_mul {x y : Float} {v v' : Extent} (value : value? x = some v)
    (value' : value? y = some v') (nonneg : .ofRat 0 ≤ v) (nonneg' : .ofRat 0 ≤ v') :
    (v = .ofRat 0 ∧ v' = ⊤ ∨ v = ⊤ ∧ v' = .ofRat 0) ∧ value? (x * y) = none ∨
      ¬ (v = .ofRat 0 ∧ v' = ⊤ ∨ v = ⊤ ∧ v' = .ofRat 0) ∧
        ∃ r, value? (x * y) = some r ∧ .ofRat 0 ≤ r := by
  rw [value?_eq] at value value' ⊢
  exact worth_mul value value' nonneg nonneg'

/-- Integers that are not negative are not negative as doubles either, and are zero only if they are
zero. -/
theorem value?_ofInt {n : Nat} (small : n < overflow) :
    ∃ v, value? (Float.ofInt n) = some v ∧ .ofRat 0 ≤ v ∧ v ≠ ⊤ ∧ (v = .ofRat 0 ↔ n = 0) := by
  obtain ⟨q, value⟩ := exists_value?_of_isFinite ((isFinite_ofInt_iff n).mpr small)
  have finite : Extent.ofRat q ≠ ⊤ := (Extent.ofRat_lt_top q).ne
  refine ⟨_, value, ?_⟩
  rcases Nat.eq_zero_or_pos n with rfl | pos
  · have zero : value? (Float.ofInt (0 : Nat)) = some (.ofRat 0) := value?_eq 0.0
    obtain same : Extent.ofRat 0 = .ofRat q := Option.some.inj (zero.symm.trans value)
    exact ⟨same.le, finite, by simp [same]⟩
  · have positive := isPositive_ofInt pos
    obtain ⟨v, value', nonneg⟩ :=
      worth_of_hasSign positive.sign ((exists_value?_iff _).mp ⟨_, value⟩)
    rw [← value?_eq, value] at value'
    obtain rfl := Option.some.inj value'
    refine ⟨nonneg, finite, iff_of_false (fun zero => ?_) pos.ne'⟩
    rw [value?_eq] at value
    rcases nonneg_cases value nonneg with ⟨t, unpacked, -⟩ | ⟨-, top⟩ | ⟨m, e, some, -, other, -⟩
    · exact positive.other t unpacked
    · exact finite top
    · exact other zero

end Binary64

open Binary64 (Extent overflow)

namespace Number

/-! ## Numbers that pass a check -/

/-- Numbers that are no number. -/
def IsNaN : Number → Prop
  | .int _ => False
  | .float x => x.isNaN = true

/-- Numbers that equal zero, with either sign. -/
def IsZero : Number → Prop
  | .int i => i = 0
  | .float x => (x == 0.0) = true

/-- Infinite numbers, on either side. -/
def IsInfinite : Number → Prop
  | .int _ => False
  | .float x => x.isInf = true

theorem value?_eq_none_iff (a : Number) : a.value? = none ↔ a.IsNaN := by
  cases a with
  | int i => simp [value?, IsNaN]
  | float x => exact Binary64.value?_eq_none_iff x

theorem value?_eq_zero_iff (a : Number) : a.value? = some (.ofRat 0) ↔ a.IsZero := by
  cases a with
  | int i => simp [value?, IsZero, Extent.ofRat]
  | float x => exact Binary64.value?_eq_zero_iff x

theorem isInfinite_iff {a : Number} {v : Extent} (value : a.value? = some v)
    (nonneg : .ofRat 0 ≤ v) : a.IsInfinite ↔ v = ⊤ := by
  cases a with
  | int i =>
      obtain rfl := Option.some.inj value
      exact iff_of_false id (Extent.ofRat_lt_top _).ne
  | float x =>
      have above : v ≠ ⊥ := ((Extent.bot_lt_ofRat 0).trans_le nonneg).ne'
      show x.isInf = true ↔ v = ⊤
      rw [← Binary64.value?_eq_top_or_bot_iff, show Binary64.value? x = some v from value]
      simp [above]

/-- A comparison with a NaN is false. -/
theorem lt_of_isNaN {a b : Number} (unknown : a.IsNaN ∨ b.IsNaN) : a.lt b = false := by
  have float {x y : Float} (unknown : x.isNaN = true ∨ y.isNaN = true) : ¬ x < y := by
    rw [← Binary64.value?_eq_none_iff, ← Binary64.value?_eq_none_iff] at unknown
    rw [Binary64.lt_iff_compare]
    rcases unknown with unknown | unknown <;> rw [Binary64.unpack_eq_notANumber unknown]
    · nofun
    · cases x.toModel.unpack <;> nofun
  have finite {x : Float} (unknown : x.isNaN = true) : Binary64.dyadic? x = none := by
    rw [← Binary64.value?_eq_none_iff, Binary64.value?] at unknown
    split at unknown
    · contradiction
    · assumption
  cases a with
  | int i =>
      cases b with
      | int j => exact (unknown.elim id id).elim
      | float y =>
          have unknown : y.isNaN = true := unknown.resolve_left id
          simp [lt, intLtFloat, finite unknown, float (.inr unknown)]
  | float x =>
      cases b with
      | int j =>
          have unknown : x.isNaN = true := unknown.resolve_right id
          simp [lt, floatLtInt, finite unknown, float (.inl unknown)]
      | float y => exact decide_eq_false (float unknown)

theorem IsNaN.or_value (a : Number) : a.IsNaN ∨ ∃ v, a.value? = some v := by
  rw [← value?_eq_none_iff, ← Option.ne_none_iff_exists']
  exact em _

theorem not_isNaN {a : Number} {v : Extent} (value : a.value? = some v) : ¬ a.IsNaN := by
  rw [← value?_eq_none_iff, value]
  nofun

theorem AtMost.not_isNaN {a b : Number} (least : a.AtMost b) : ¬ a.IsNaN ∧ ¬ b.IsNaN := by
  obtain ⟨v, w, value, value', -⟩ := least
  exact ⟨Number.not_isNaN value, Number.not_isNaN value'⟩

theorem not_isInfinite {a : Number} {q : ℚ} (value : a.value? = some (.ofRat q)) :
    ¬ a.IsInfinite := by
  cases a with
  | int i => exact id
  | float x =>
      show ¬ x.isInf = true
      rw [← Binary64.value?_eq_top_or_bot_iff, show Binary64.value? x = _ from value]
      simp [(Extent.ofRat_lt_top q).ne, (Extent.bot_lt_ofRat q).ne']

theorem AtMost.trans {a b c : Number} (first : a.AtMost b) (second : b.AtMost c) : a.AtMost c := by
  obtain ⟨u, v, value, value', le⟩ := first
  obtain ⟨v', w, same, value'', le'⟩ := second
  obtain rfl : v = v' := Option.some.inj (value'.symm.trans same)
  exact ⟨u, w, value, value'', le.trans le'⟩

theorem atMost_self {a : Number} (known : ¬ a.IsNaN) : a.AtMost a := by
  obtain ⟨v, value⟩ := (IsNaN.or_value a).resolve_left known
  exact ⟨v, v, value, value, le_rfl⟩

/-- What is not less than a bound is at least the bound, unless one of the two is no number. -/
theorem atMost_iff_of_not_lt {a b : Number} (passes : a.lt b = false) :
    b.AtMost a ↔ ¬ a.IsNaN ∧ ¬ b.IsNaN := by
  refine ⟨fun least => least.not_isNaN.symm, fun ⟨known, known'⟩ => ?_⟩
  obtain ⟨v, value⟩ := (IsNaN.or_value a).resolve_left known
  obtain ⟨w, value'⟩ := (IsNaN.or_value b).resolve_left known'
  exact atMost_of_not_lt value value' passes

/-- A number that is not less than zero is no number or worth at least zero. -/
theorem nonneg_cases {a : Number} (nonneg : a.lt (.int 0) = false) :
    a.value? = none ∨ ∃ v, a.value? = some v ∧ .ofRat 0 ≤ v := by
  rcases IsNaN.or_value a with unknown | ⟨v, value⟩
  · exact .inl ((value?_eq_none_iff a).mpr unknown)
  · obtain ⟨w, v', zero, value', least⟩ := atMost_of_not_lt value rfl nonneg
    obtain rfl := Option.some.inj zero
    exact .inr ⟨v', value', by simpa using least⟩

theorem lt_zero_of_value {a : Number} {v : Extent} (value : a.value? = some v)
    (nonneg : .ofRat 0 ≤ v) : a.lt (.int 0) = false := by
  rw [← Bool.not_eq_true, lt_iff value rfl, not_lt]
  simpa using nonneg

/-- A number that is not less than zero, as a double: it is no number if it was none, and zero or
infinite only if it was. -/
theorem toFloat_cases {a : Number} {x : Float} (nonneg : a.lt (.int 0) = false)
    (read : a.toFloat = .ok x) : a.value? = none ∧ Binary64.value? x = none ∨
      ∃ v w, a.value? = some v ∧ Binary64.value? x = some w ∧ .ofRat 0 ≤ w ∧
        (w = .ofRat 0 ↔ v = .ofRat 0) ∧ (w = ⊤ ↔ v = ⊤) := by
  cases a with
  | float y =>
      obtain rfl : y = x := Except.ok.inj read
      exact (nonneg_cases nonneg).imp (fun unknown => ⟨unknown, unknown⟩)
        fun ⟨v, value, least⟩ => ⟨v, v, value, value, least, Iff.rfl, Iff.rfl⟩
  | int i =>
      obtain ⟨n, rfl⟩ := Int.eq_ofNat_of_zero_le (show 0 ≤ i by simpa [lt] using nonneg)
      rw [toFloat_int] at read
      split at read
      case isFalse => contradiction
      case isTrue small =>
        obtain rfl := Except.ok.inj read
        obtain ⟨w, value, least, finite, zero⟩ := Binary64.value?_ofInt small
        refine .inr ⟨_, w, rfl, value, least, zero.trans ?_, iff_of_false finite ?_⟩
        · simp [Binary64.Extent.ofRat_inj]
        · exact (Extent.ofRat_lt_top _).ne

/-! ## Products and powers of them -/

/-- A product is one of integers or one of doubles. -/
theorem mul_cases {a b d : Number} (product : a.mul b = .ok d) :
    (∃ i j, a = int i ∧ b = int j ∧ d = int (i * j)) ∨
      ∃ x y, a.toFloat = .ok x ∧ b.toFloat = .ok y ∧ d = float (x * y) := by
  have doubles (rounded : (a.toFloat >>= fun x => b.toFloat >>= fun y => pure (float (x * y))) =
      (.ok d : Except ArithmeticError Number)) :
      ∃ x y, a.toFloat = .ok x ∧ b.toFloat = .ok y ∧ d = float (x * y) := by
    obtain ⟨x, first, rest⟩ := ok_of_bind rounded
    obtain ⟨y, second, result⟩ := ok_of_bind rest
    exact ⟨x, y, first, second, (Except.ok.inj result).symm⟩
  cases a with
  | float x => exact .inr (doubles product)
  | int i =>
      cases b with
      | float y => exact .inr (doubles product)
      | int j => exact .inl ⟨i, j, rfl, rfl, (Except.ok.inj product).symm⟩

theorem value_of_not_lt_one {a : Number} {v : Extent} (least : a.lt (.int 1) = false)
    (value : a.value? = some v) : .ofRat 1 ≤ v := by
  obtain ⟨w, v', one, value', le⟩ := atMost_of_not_lt value rfl least
  obtain rfl := Option.some.inj one
  obtain rfl : v = v' := Option.some.inj (value.symm.trans value')
  simpa using le

theorem lt_one_of_value {a : Number} {v : Extent} (value : a.value? = some v)
    (least : .ofRat 1 ≤ v) : a.lt (.int 1) = false := by
  rw [← Bool.not_eq_true, lt_iff value rfl, not_lt]
  simpa using least

theorem not_lt_zero_of_not_lt_one {a : Number} (least : a.lt (.int 1) = false) :
    a.lt (.int 0) = false := by
  rcases IsNaN.or_value a with unknown | ⟨v, value⟩
  · exact lt_of_isNaN (.inl unknown)
  · exact lt_zero_of_value value
      ((ofRat_le_ofRat.mpr zero_le_one).trans (value_of_not_lt_one least value))

/-- A number that is not less than zero times one that is not less than one is not less than zero.
It is no number if one of the two is none, or if zero is multiplied by infinity. -/
theorem mul_of_not_lt {a b d : Number} (nonneg : a.lt (.int 0) = false)
    (least : b.lt (.int 1) = false) (product : a.mul b = .ok d) : d.lt (.int 0) = false ∧
      (d.IsNaN ↔ a.IsNaN ∨ b.IsNaN ∨ a.IsZero ∧ b.IsInfinite) := by
  have nonneg' := not_lt_zero_of_not_lt_one least
  rcases mul_cases product with ⟨i, j, rfl, rfl, rfl⟩ | ⟨x, y, first, second, rfl⟩
  · simp only [lt, decide_eq_false_iff_not, not_lt] at nonneg nonneg' ⊢
    exact ⟨mul_nonneg nonneg nonneg', by simp [IsNaN, IsInfinite]⟩
  simp only [← value?_eq_none_iff]
  rcases toFloat_cases nonneg first with ⟨unknown, isNaN⟩ | ⟨v₀, v, value₀, value, above, zero, -⟩
  · have isNaN : (float (x * y)).value? = none := Binary64.value?_mul_eq_none (.inl isNaN)
    exact ⟨lt_of_isNaN (.inl ((value?_eq_none_iff _).mp isNaN)), by simp [isNaN, unknown]⟩
  rcases toFloat_cases nonneg' second with
    ⟨unknown, isNaN⟩ | ⟨w₀, w, value₀', value', above', zero', top⟩
  · have isNaN : (float (x * y)).value? = none := Binary64.value?_mul_eq_none (.inr isNaN)
    exact ⟨lt_of_isNaN (.inl ((value?_eq_none_iff _).mp isNaN)), by simp [isNaN, unknown]⟩
  -- Both are worth something, and the second is worth at least one.
  have some : .ofRat 1 ≤ w₀ := value_of_not_lt_one least value₀'
  have other : w₀ ≠ .ofRat 0 := by
    rintro rfl
    exact absurd some (by simp)
  have infinite : b.IsInfinite ↔ w = ⊤ := by
    rw [top]
    exact isInfinite_iff value₀' ((ofRat_le_ofRat.mpr zero_le_one).trans some)
  have none : a.IsZero ↔ v = .ofRat 0 := by
    rw [zero, ← value?_eq_zero_iff, value₀, Option.some_inj]
  rw [none, infinite, value₀, value₀']
  rcases Binary64.value?_mul value value' above above' with
    ⟨meets, isNaN⟩ | ⟨apart, r, result, least⟩
  · have isNaN : (float (x * y)).value? = Option.none := isNaN
    have meets : v = .ofRat 0 ∧ w = ⊤ := meets.resolve_right fun both => other (zero'.mp both.2)
    exact ⟨lt_of_isNaN (.inl ((value?_eq_none_iff _).mp isNaN)), by simp [isNaN, meets]⟩
  · have result : (float (x * y)).value? = Option.some r := result
    refine ⟨lt_zero_of_value result least, ?_⟩
    simpa [result] using fun zero top => apart (.inl ⟨zero, top⟩)

theorem value?_one : Binary64.value? 1.0 = some (.ofRat 1) :=
  Binary64.value?_of_beq_one (by decide)

/-- A power of a double that is at least one is at least one. -/
theorem atLeastOne_of_not_lt {x power : Float} {q : ℚ} (value : Binary64.value? x = some (.ofRat q))
    (least : 1 ≤ q) (finite : Binary64.isFinite power = true) :
    ∃ r : ℚ, Binary64.value? (atLeastOne x power) = some (.ofRat r) ∧ 1 ≤ r := by
  obtain ⟨r, result⟩ := Binary64.exists_value?_of_isFinite finite
  have above : ¬ x < 1.0 := by
    rw [Binary64.lt_iff value value?_one, Extent.ofRat_lt_ofRat, not_lt]
    exact least
  unfold atLeastOne
  by_cases less : power < 1.0
  · exact ⟨1, by simp [less, above, value?_one], le_rfl⟩
  · refine ⟨r, by simp [less, result], ?_⟩
    rwa [Binary64.lt_iff result value?_one, Extent.ofRat_lt_ofRat, not_lt] at less

/-- What a power of a double is, if it is in range. -/
theorem powFloat_eq_ok {x y : Float} {n : Nat} (power : powFloat x n = .ok y) :
    (n = 0 ∨ (x == 1.0) = true) ∧ y = 1.0 ∨
      n ≠ 0 ∧ Binary64.magnitude? x = none ∧ (¬ x < 0.0 → y = x) ∨
      n ≠ 0 ∧ Binary64.isFinite x = true ∧
        ∃ p, Binary64.isFinite p = true ∧ y = atLeastOne x p := by
  unfold powFloat at power
  split at power
  · contradiction
  · split at power
    case isTrue trivially =>
      exact .inl ⟨by simpa using trivially, (Except.ok.inj power).symm⟩
    case isFalse other =>
      have some : n ≠ 0 := by simp_all
      split at power
      case h_1 infinite =>
        refine .inr (.inl ⟨some, infinite, fun above => ?_⟩)
        simpa [above] using (Except.ok.inj power).symm
      case h_2 m e magnitude =>
        have finite : Binary64.isFinite x = true := by simp [Binary64.isFinite, magnitude]
        refine .inr (.inr ⟨some, finite, ?_⟩)
        split at power
        · contradiction
        · dsimp only at power
          split at power
          case isTrue held => exact ⟨_, held, (Except.ok.inj power).symm⟩
          case isFalse => contradiction

/-- A power of a number that is not less than one is not less than one. It is no number or infinite
if the number is, except that the power zero is one. -/
theorem pow_of_not_lt {a d : Number} {n : Nat} (least : a.lt (.int 1) = false)
    (power : a.pow n = .ok d) : d.lt (.int 1) = false ∧ (d.IsNaN ↔ a.IsNaN ∧ n ≠ 0) ∧
      (d.IsInfinite ↔ a.IsInfinite ∧ n ≠ 0) := by
  have settled {d : Number} {q : ℚ} (value : d.value? = some (.ofRat q)) (above : 1 ≤ q)
      (other : n = 0 ∨ ¬ a.IsNaN ∧ ¬ a.IsInfinite) : d.lt (.int 1) = false ∧
        (d.IsNaN ↔ a.IsNaN ∧ n ≠ 0) ∧ (d.IsInfinite ↔ a.IsInfinite ∧ n ≠ 0) := by
    refine ⟨lt_one_of_value value (ofRat_le_ofRat.mpr above), ?_, ?_⟩
    · exact iff_of_false (not_isNaN value) (by tauto)
    · exact iff_of_false (not_isInfinite value) (by tauto)
  cases a with
  | int i =>
      obtain rfl := Except.ok.inj power
      have positive : 1 ≤ i := by simpa [lt] using least
      refine settled (q := (i ^ n : Int)) (by rw [powInt_eq]; rfl) ?_ (.inr ⟨id, id⟩)
      exact_mod_cast one_le_pow₀ positive
  | float x =>
      obtain ⟨z, raised, rfl⟩ := ok_of_map power
      rcases powFloat_eq_ok raised with
        ⟨trivially, rfl⟩ | ⟨some, infinite, handed⟩ | ⟨some, finite, p, held, rfl⟩
      · refine settled value?_one le_rfl (trivially.imp_right fun one => ?_)
        have value : (float x).value? = Option.some (.ofRat 1) := Binary64.value?_of_beq_one one
        exact ⟨not_isNaN value, not_isInfinite value⟩
      · have above : ¬ x < 0.0 := by
          have nonneg := not_lt_zero_of_not_lt_one least
          simpa [lt, floatLtInt, Binary64.dyadic?, infinite] using nonneg
        rw [handed above]
        simp [least, some]
      · obtain ⟨q, value⟩ := Binary64.exists_value?_of_isFinite finite
        have value : (float x).value? = Option.some (.ofRat q) := value
        have above := ofRat_le_ofRat.mp (value_of_not_lt_one least value)
        obtain ⟨r, result, above'⟩ := atLeastOne_of_not_lt value above held
        exact settled result above' (.inr ⟨not_isNaN value, not_isInfinite value⟩)

/-- A number times a power of another, which are not less than zero and one, is not less than
zero. -/
theorem scaled_of_not_lt {base factor d : Number} {n : Nat} (nonneg : base.lt (.int 0) = false)
    (least : factor.lt (.int 1) = false) (product : scaled base factor n = .ok d) :
    d.lt (.int 0) = false ∧ (d.IsNaN ↔
      base.IsNaN ∨ n ≠ 0 ∧ (factor.IsNaN ∨ base.IsZero ∧ factor.IsInfinite)) := by
  obtain ⟨power, raised, multiplied⟩ := ok_of_bind product
  obtain ⟨above, isNaN, infinite⟩ := pow_of_not_lt least raised
  obtain ⟨above', isNaN'⟩ := mul_of_not_lt nonneg above multiplied
  exact ⟨above', by rw [isNaN', isNaN, infinite, ← and_assoc, ← or_and_right, and_comm]⟩

end Number

end EventStream
