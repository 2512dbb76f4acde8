import EventStream.Number.Basic
import Mathlib.Tactic.GCongr
import Mathlib.Tactic.NormNum
import Mathlib.Tactic.Positivity

/-
# The parts of doubles

Arithmetic on doubles is rounding: the operands are unpacked into mantissa and exponent, and the
exact result is cut to 53 bits and packed again. Here the bits that the settings look at are tied to
those parts (`parts`), and rounding is put into closed form (`roundWithAccuracy_eq`). What is wanted
of it is how far it can go: where a result is small it stays finite, and an integer is finite as a
double exactly below `overflow`.
-/

namespace EventStream.Binary64

open Float.Model
open Float.Model.UnpackedFloat
  (Sign unpackSign unpackExponent unpackMantissa ExtendedMantissa Accuracy roundWithAccuracy
    shiftToTargetExponent)

/-! ## The fields of a double -/

theorem toNat_unpackExponent (b : BitVec 64) :
    (@unpackExponent .binary64 b).toNat = b.toNat / 2 ^ 52 % 2048 := by
  simp only [unpackExponent, BitVec.extractLsb, BitVec.toNat_cast, BitVec.extractLsb'_toNat,
    Nat.shiftRight_eq_div_pow]

theorem toNat_unpackMantissa (b : BitVec 64) :
    (@unpackMantissa .binary64 b).toNat = b.toNat % 2 ^ 52 := by
  simp only [unpackMantissa, BitVec.extractLsb, BitVec.toNat_cast, BitVec.extractLsb'_toNat]
  rfl

theorem toNat_unpackSign (b : BitVec 64) :
    (@unpackSign .binary64 b).toNat = b.toNat / 2 ^ 63 := by
  have small := b.isLt
  change ((b.extractLsb 63 63).cast _).toNat = _
  rw [BitVec.toNat_cast, BitVec.extractLsb, BitVec.extractLsb'_toNat, Nat.shiftRight_eq_div_pow]
  omega

theorem toNat_one_append {w : Nat} (v : BitVec w) : (1#1 ++ v).toNat = 2 ^ w + v.toNat := by
  rw [BitVec.toNat_append, ← Nat.shiftLeft_add_eq_or_of_lt v.isLt]
  simp [Nat.shiftLeft_eq]

/-- What a double is, with what is known of its parts: a mantissa has 53 bits, and fewer only at the
least exponent. -/
inductive Parts (x : Float) : UnpackedFloat → Prop
  | infinity (s) : magnitude? x = none → Parts x (.infinity s)
  | notANumber : magnitude? x = none → Parts x .notANumber
  | zero (s) : magnitude? x = some (0, -1074) → Parts x (.zero s)
  | finite {s m e} (pos : 0 < m) : magnitude? x = some (m, e) →
      (isNegative x = true ↔ s = .negative) → m < 2 ^ 53 → 2 ^ 52 ≤ m ∨ e = -1074 → -1074 ≤ e →
      e ≤ 971 → Parts x (.finite s m e pos)

/-- The sign bit of a double. -/
theorem isNegative_iff (b : BitVec 64) (valid) : isNegative ⟨⟨⟨b⟩, valid⟩⟩ = true ↔
    Sign.ofBitVec (@unpackSign .binary64 b) = Sign.negative := by
  have bit : @unpackSign .binary64 b = 0#1 ↔ b.toNat / 2 ^ 63 = 0 := by
    rw [← BitVec.toNat_inj, toNat_unpackSign]
    rfl
  have shifted : isNegative ⟨⟨⟨b⟩, valid⟩⟩ = true ↔ b.toNat / 2 ^ 63 = 1 := by
    change decide ((⟨b⟩ : UInt64) >>> 63 = 1) = true ↔ _
    simp [← UInt64.toNat_inj, Nat.shiftRight_eq_div_pow]
  rw [shifted, Sign.ofBitVec]
  by_cases positive : b.toNat / 2 ^ 63 = 0
  · rw [if_pos (bit.mpr positive), positive]
    simp
  · rw [if_neg (mt bit.mp positive)]
    refine iff_of_true ?_ rfl
    have small := b.isLt
    omega

/-- The mantissa and the exponent of a double as its bits have them. -/
theorem magnitude?_eq (b : BitVec 64) (valid) : magnitude? ⟨⟨⟨b⟩, valid⟩⟩ =
    if b.toNat / 2 ^ 52 % 2048 = 2047 then none
    else if b.toNat / 2 ^ 52 % 2048 = 0 then some (b.toNat % 2 ^ 52, -1074)
    else some (2 ^ 52 + b.toNat % 2 ^ 52, ((b.toNat / 2 ^ 52 % 2048 : Nat) : Int) - 1075) := rfl

/-- What a double is, by the fields of its bits. -/
@[elab_as_elim]
theorem unpack_cases {motive : UnpackedFloat → Prop} (b : BitVec 64)
    (infinity : @unpackExponent .binary64 b = -1#_ →
      motive (.infinity (Sign.ofBitVec (@unpackSign .binary64 b))))
    (notANumber : @unpackExponent .binary64 b = -1#_ → motive .notANumber)
    (zero : @unpackExponent .binary64 b = 0#_ → @unpackMantissa .binary64 b = 0#_ →
      motive (.zero (Sign.ofBitVec (@unpackSign .binary64 b))))
    (least : @unpackExponent .binary64 b = 0#_ → ∀ pos,
      motive (.finite (Sign.ofBitVec (@unpackSign .binary64 b)) (@unpackMantissa .binary64 b).toNat
        ((@unpackExponent .binary64 b).toNat - (1023 + 52 : Nat) + 1) pos))
    (normal : @unpackExponent .binary64 b ≠ -1#_ → @unpackExponent .binary64 b ≠ 0#_ → ∀ pos,
      motive (.finite (Sign.ofBitVec (@unpackSign .binary64 b))
        (1#1 ++ @unpackMantissa .binary64 b).toNat
        ((@unpackExponent .binary64 b).toNat - (1023 + 52 : Nat)) pos)) :
    motive (UnpackedFloat.unpack .binary64 b) := by
  unfold UnpackedFloat.unpack
  dsimp only
  by_cases full : @unpackExponent .binary64 b = -1#_
  · rw [if_pos full]
    by_cases nothing : @unpackMantissa .binary64 b = 0#_
    · rw [if_pos nothing]
      exact infinity full
    · rw [if_neg nothing]
      exact notANumber full
  rw [if_neg full]
  by_cases blank : @unpackExponent .binary64 b = 0#_
  · rw [if_pos blank]
    by_cases nothing : @unpackMantissa .binary64 b = 0#_
    · rw [dif_pos nothing]
      exact zero blank nothing
    · rw [dif_neg nothing]
      exact least blank _
  · rw [if_neg blank]
    exact normal full blank _

/-- The bits of a double and its parts say the same. -/
theorem parts (x : Float) : Parts x x.toModel.unpack := by
  obtain ⟨⟨⟨b⟩, valid⟩⟩ := x
  have top : @unpackExponent .binary64 b = -1#_ ↔ b.toNat / 2 ^ 52 % 2048 = 2047 := by
    rw [← BitVec.toNat_inj, toNat_unpackExponent]
    rfl
  have bottom : @unpackExponent .binary64 b = 0#_ ↔ b.toNat / 2 ^ 52 % 2048 = 0 := by
    rw [← BitVec.toNat_inj, toNat_unpackExponent]
    rfl
  have empty : @unpackMantissa .binary64 b = 0#_ ↔ b.toNat % 2 ^ 52 = 0 := by
    rw [← BitVec.toNat_inj, toNat_unpackMantissa]
    rfl
  have magnitude := magnitude?_eq b valid
  have negative := isNegative_iff b valid
  change Parts _ (UnpackedFloat.unpack .binary64 b)
  refine unpack_cases b ?infinity ?notANumber ?zero ?least ?normal
  case infinity => exact fun full => .infinity _ (by rw [magnitude, if_pos (top.mp full)])
  case notANumber => exact fun full => .notANumber (by rw [magnitude, if_pos (top.mp full)])
  case zero =>
    intro blank nothing
    have tiny := bottom.mp blank
    exact .zero _ (by rw [magnitude, if_neg (by omega), if_pos tiny, empty.mp nothing])
  case least =>
    intro blank pos
    have tiny := bottom.mp blank
    have least : ((@unpackExponent .binary64 b).toNat : Int) - (1023 + 52 : Nat) + 1 = -1074 := by
      rw [toNat_unpackExponent, tiny]
      rfl
    refine .finite _ ?_ negative ?_ (.inr least) least.ge (least.trans_le (by decide))
    · rw [magnitude, if_neg (by omega), if_pos tiny, toNat_unpackMantissa]
      exact congrArg (fun e => some (b.toNat % 2 ^ 52, e)) least.symm
    · rw [toNat_unpackMantissa]
      omega
  case normal =>
    intro full blank pos
    have huge := mt top.mpr full
    have some := mt bottom.mpr blank
    have mantissa : (1#1 ++ @unpackMantissa .binary64 b).toNat = 2 ^ 52 + b.toNat % 2 ^ 52 := by
      rw [toNat_one_append, toNat_unpackMantissa]
    have exponent : ((@unpackExponent .binary64 b).toNat : Int) - (1023 + 52 : Nat) =
        (b.toNat / 2 ^ 52 % 2048 : Nat) - 1075 := by
      rw [toNat_unpackExponent]
      rfl
    refine .finite _ ?_ negative ?_ (.inl ?_) (exponent.ge.trans' ?_) (exponent.trans_le ?_)
    · rw [magnitude, if_neg huge, if_neg some, mantissa, toNat_unpackExponent]
      rfl
    · rw [mantissa]
      omega
    · rw [mantissa]
      omega
    · omega
    · omega

/-! ## Rounding -/

/-- A mantissa shifted to the right and rounded, ties to even. -/
def rounded (m k : Nat) : Nat :=
  if 2 * (m % 2 ^ k) < 2 ^ k ∨ 2 * (m % 2 ^ k) = 2 ^ k ∧ m / 2 ^ k % 2 = 0 then m / 2 ^ k
  else m / 2 ^ k + 1

theorem mod_two_pow_succ (m k : Nat) : m % 2 ^ (k + 1) = 2 ^ k * (m / 2 ^ k % 2) + m % 2 ^ k := by
  rw [pow_succ, Nat.mod_mul, add_comm]

/-- The bits that are left of a mantissa which is shifted to the right, and what is known of the
others. -/
theorem repeat_shiftRightOne (m k : Nat) :
    Nat.repeat ExtendedMantissa.shiftRightOne (k + 1) ⟨m, false, false⟩ =
      ⟨m / 2 ^ (k + 1), m / 2 ^ k % 2 != 0, m % 2 ^ k != 0⟩ := by
  induction k with
  | zero => simp [Nat.repeat, ExtendedMantissa.shiftRightOne, Nat.mod_one]
  | succ k ih =>
      have positive : 0 < 2 ^ k := Nat.two_pow_pos k
      rw [Nat.repeat, ih]
      simp only [ExtendedMantissa.shiftRightOne, ExtendedMantissa.mk.injEq, true_and]
      refine ⟨by rw [Nat.div_div_eq_div_mul, ← pow_succ], ?_⟩
      rw [mod_two_pow_succ m k]
      rcases Nat.mod_two_eq_zero_or_one (m / 2 ^ k) with bit | bit <;> simp [bit]

theorem roundedMantissa_shift (m k : Nat) :
    ((⟨m, false, false⟩ : ExtendedMantissa) >>> k).roundedMantissa = rounded m k := by
  change (Nat.repeat ExtendedMantissa.shiftRightOne k ⟨m, false, false⟩).roundedMantissa = _
  cases k with
  | zero => simp [Nat.repeat, ExtendedMantissa.roundedMantissa, ExtendedMantissa.accuracy,
      Accuracy.roundToNearestEven, rounded, Nat.mod_one]
  | succ k =>
      have positive : 0 < 2 ^ k := Nat.two_pow_pos k
      have small : m % 2 ^ k < 2 ^ k := Nat.mod_lt _ positive
      rw [repeat_shiftRightOne, ExtendedMantissa.roundedMantissa, rounded, mod_two_pow_succ m k,
        pow_succ]
      generalize m / (2 ^ k * 2) = q
      rcases Nat.mod_two_eq_zero_or_one (m / 2 ^ k) with bit | bit <;> rw [bit] <;>
        rcases Nat.eq_zero_or_pos (m % 2 ^ k) with low | low
      · simp [ExtendedMantissa.accuracy, Accuracy.roundToNearestEven, low]
      · have some : (m % 2 ^ k != 0) = true := by simpa using low.ne'
        rw [some, if_pos (.inl (by omega))]
        rfl
      · rw [low]
        change q + q % 2 = _
        split <;> omega
      · have some : (m % 2 ^ k != 0) = true := by simpa using low.ne'
        rw [some, if_neg (by omega)]
        rfl

/-- By how many bits a mantissa is too long for its exponent. -/
def excess (m : Nat) (e : Int) : Nat := (max (m.log2 + 1 + e - 53) (-1074) - e).toNat

theorem mantissa_shift (m k : Nat) :
    ((⟨m, false, false⟩ : ExtendedMantissa) >>> k).mantissa = m / 2 ^ k := by
  cases k with
  | zero => exact (Nat.div_one m).symm
  | succ k => exact congrArg ExtendedMantissa.mantissa (repeat_shiftRightOne m k)

/-- The double with a mantissa and an exponent, or zero. -/
def shaped (s : Sign) (m : Nat) (e : Int) : UnpackedFloat :=
  if h : m = 0 then .zero s else .finite s m e (Nat.pos_of_ne_zero h)

theorem shaped_of_pos (s : Sign) {m : Nat} (e : Int) (pos : 0 < m) :
    shaped s m e = .finite s m e pos := dif_neg pos.ne'

@[elab_as_elim]
theorem shaped_cases {motive : UnpackedFloat → Prop} (s : Sign) (m : Nat) (e : Int)
    (zero : motive (.zero s)) (finite : ∀ pos, motive (.finite s m e pos)) :
    motive (shaped s m e) := by
  rcases Nat.eq_zero_or_pos m with rfl | pos
  · exact zero
  · exact shaped_of_pos s e pos ▸ finite pos

/-- A mantissa is cut and rounded, and cut again, as rounding may have made it longer. -/
theorem roundWithAccuracy_eq (s : Sign) (m : Nat) (e : Int) :
    let r := rounded m (excess m e)
    let k := excess r (e + excess m e)
    roundWithAccuracy .binary64 s m e .exact = shaped s (r / 2 ^ k) (e + excess m e + k) := by
  intro r k
  let cut (n : Nat) (f : Int) : UnpackedFloat :=
    shaped s ((⟨n, false, false⟩ : ExtendedMantissa) >>> excess n f).mantissa (f + excess n f)
  calc roundWithAccuracy .binary64 s m e .exact
    _ = cut ((⟨m, false, false⟩ : ExtendedMantissa) >>> excess m e).roundedMantissa
          (e + excess m e) := rfl
    _ = cut r (e + excess m e) := by rw [roundedMantissa_shift]
    _ = shaped s (r / 2 ^ k) (e + excess m e + k) := congrArg (shaped s · _) (mantissa_shift r k)

/-- Finite, with an exponent of at most `k`. -/
def Bounded (k : Int) : UnpackedFloat → Prop
  | .zero _ => True
  | .finite _ _ e _ => e ≤ k
  | _ => False

theorem Bounded.mono {k l : Int} {u : UnpackedFloat} (bounded : Bounded k u) (le : k ≤ l) :
    Bounded l u := by
  cases u with
  | finite s m e pos => exact le_trans (show e ≤ k from bounded) le
  | _ => exact bounded

/-- A double that is packed and unpacked again. -/
def repacked (u : UnpackedFloat) : UnpackedFloat :=
  UnpackedFloat.unpack .binary64 (UnpackedFloat.pack .binary64 u)

/-- A finite double is packed with the exponent of an infinity, of its own, or of the least ones. -/
theorem pack_finite (s : Sign) (m : Nat) (e : Int) (pos : 0 < m) :
    UnpackedFloat.pack .binary64 (.finite s m e pos) =
      if 2 ^ 11 ≤ (e + 1075).toNat + 1 then UnpackedFloat.packedInfinity .binary64 s
      else if m.log2 + 1 = 53 then UnpackedFloat.packComponents .binary64 s
        (BitVec.ofNat 11 (e + 1075).toNat) (BitVec.ofNat 52 m)
      else UnpackedFloat.packComponents .binary64 s 0#11 (BitVec.ofNat 52 m) := by
  have bias : (e + (1023 : Nat) + (52 : Nat)).toNat = (e + 1075).toNat := by omega
  rw [← bias]
  rfl

/-- What is not full at the top is finite. -/
theorem bounded_unpack {b : BitVec 64} {k : Int} (least : -1074 ≤ k)
    (exponent : ((@unpackExponent .binary64 b).toNat : Int) ≤ k + 1075) (small : k ≤ 971) :
    Bounded k (UnpackedFloat.unpack .binary64 b) := by
  have top : @unpackExponent .binary64 b ≠ -1#_ := by
    intro full
    have : (@unpackExponent .binary64 b).toNat = 2047 := by rw [full]; rfl
    omega
  refine unpack_cases b (fun full => absurd full top) (fun full => absurd full top)
    (fun _ _ => trivial) (fun tiny _ => ?_) fun _ _ _ => ?_
  · change ((@unpackExponent .binary64 b).toNat : Int) - (1023 + 52 : Nat) + 1 ≤ k
    rw [tiny]
    simp
    omega
  · change ((@unpackExponent .binary64 b).toNat : Int) - (1023 + 52 : Nat) ≤ k
    omega

theorem bounded_repacked {u : UnpackedFloat} {k : Int} (bounded : Bounded k u) (least : -1074 ≤ k)
    (small : k ≤ 971) : Bounded k (repacked u) := by
  cases u with
  | notANumber | infinity => contradiction
  | zero s => cases s <;> trivial
  | finite s m e pos =>
      have fits : e ≤ k := bounded
      refine bounded_unpack least ?_ small
      rw [pack_finite, if_neg (by omega)]
      split
      · rw [UnpackedFloat.unpackExponent_packComponents, BitVec.toNat_ofNat]
        change (((e + 1075).toNat % 2 ^ 11 : Nat) : Int) ≤ k + 1075
        omega
      · rw [UnpackedFloat.unpackExponent_packComponents]
        simp
        omega

theorem repacked_of_large {s : Sign} {m : Nat} {e : Int} (pos : 0 < m) (large : 972 ≤ e) :
    repacked (.finite s m e pos) = .infinity s := by
  rw [repacked, pack_finite, if_pos (by omega)]
  cases s <;> rfl

/-! ### How far rounding goes -/

theorem rounded_le (m k : Nat) : rounded m k ≤ m / 2 ^ k + 1 := by
  unfold rounded
  split <;> omega

theorem le_rounded (m k : Nat) : m / 2 ^ k ≤ rounded m k := by
  unfold rounded
  split <;> omega

theorem lt_two_pow_excess (m : Nat) (e : Int) : m < 2 ^ (53 + excess m e) :=
  Nat.lt_of_lt_of_le Nat.lt_log2_self
    (Nat.pow_le_pow_right (by decide) (by unfold excess; omega))

theorem rounded_excess_le (m : Nat) (e : Int) : rounded m (excess m e) ≤ 2 ^ 53 := by
  have below : m / 2 ^ excess m e < 2 ^ 53 :=
    Nat.div_lt_of_lt_mul (by rw [mul_comm, ← pow_add]; exact lt_two_pow_excess m e)
  exact (rounded_le m _).trans below

/-- Rounding makes a mantissa too long by one bit at most. -/
theorem excess_rounded_le (m : Nat) (e : Int) :
    excess (rounded m (excess m e)) (e + excess m e) ≤ 1 := by
  have short : (rounded m (excess m e)).log2 ≤ 53 := by
    have most := rounded_excess_le m e
    by_cases zero : rounded m (excess m e) = 0
    · rw [zero, Nat.log2_zero]
      omega
    · exact Nat.lt_succ_iff.mp ((Nat.log2_lt zero).mpr (by omega))
  have least : -1074 ≤ e + excess m e := by
    unfold excess
    omega
  generalize rounded m (excess m e) = r at short ⊢
  generalize e + (excess m e : Int) = f at least ⊢
  unfold excess
  omega

theorem bounded_roundWithAccuracy (s : Sign) (m : Nat) (e : Int) :
    Bounded (max e (max (m.log2 + 1 + e - 53) (-1074)) + 1)
      (roundWithAccuracy .binary64 s m e .exact) := by
  have once := excess_rounded_le m e
  rw [roundWithAccuracy_eq]
  refine shaped_cases s _ _ trivial fun _ => ?_
  change e + excess m e + (excess (rounded m (excess m e)) (e + excess m e) : Int) ≤ _
  have far : e + (excess m e : Int) = max e (max (m.log2 + 1 + e - 53) (-1074)) := by
    unfold excess
    omega
  omega

/-- What is finite is packed as a number, if perhaps an infinite one. -/
theorem repacked_ne_notANumber {k : Int} {u : UnpackedFloat} (bounded : Bounded k u) :
    repacked u ≠ .notANumber := by
  cases u with
  | notANumber | infinity => contradiction
  | zero s => cases s <;> nofun
  | finite s m e pos =>
      rcases lt_or_ge 971 e with large | small
      · rw [repacked_of_large pos large]
        nofun
      · intro unknown
        have bounded : Bounded 971 (repacked (.finite s m e pos)) :=
          bounded_repacked small (by decide) (by decide)
        rw [unknown] at bounded
        exact bounded

theorem bounded_mul {k l : Int} {u w : UnpackedFloat} (bounded : Bounded k u)
    (bounded' : Bounded l w) : ∃ j, Bounded j (UnpackedFloat.mul .binary64 u w) := by
  cases u with
  | notANumber | infinity => contradiction
  | zero s =>
      cases w with
      | notANumber | infinity => contradiction
      | zero | finite => exact ⟨0, trivial⟩
  | finite s m e pos =>
      cases w with
      | notANumber | infinity => contradiction
      | zero t => exact ⟨0, trivial⟩
      | finite t n f pos' => exact ⟨_, bounded_roundWithAccuracy (s * t) (m * n) (e + f)⟩

/-! ## Integers as doubles -/

theorem isFinite_iff (x : Float) : isFinite x = true ↔ Bounded 971 x.toModel.unpack := by
  unfold isFinite
  have known := parts x
  generalize x.toModel.unpack = u at known
  cases known with
  | infinity _ none | notANumber none => exact iff_of_false (by simp [none]) id
  | zero _ some => exact iff_of_true (by simp [some]) trivial
  | finite _ some _ _ _ _ high => exact iff_of_true (by simp [some]) high

theorem lt_two_pow {n p : Nat} (some : n ≠ 0) (short : n.log2 < p) : n < 2 ^ p :=
  (Nat.log2_lt some).mp short

theorem two_pow_le {n p : Nat} (some : n ≠ 0) (long : p ≤ n.log2) : 2 ^ p ≤ n :=
  (Nat.le_log2 some).mp long

theorem log2_mul_two_pow {n : Nat} (some : n ≠ 0) (k : Nat) : (n * 2 ^ k).log2 = n.log2 + k := by
  have positive : 0 < 2 ^ k := Nat.two_pow_pos k
  rw [Nat.log2_eq_iff (Nat.mul_ne_zero some positive.ne'), pow_add, Nat.add_right_comm, pow_add]
  exact ⟨Nat.mul_le_mul_right _ (Nat.log2_self_le some),
    Nat.mul_lt_mul_of_pos_right Nat.lt_log2_self positive⟩

/-- A short integer is moved up until it has 53 bits. -/
theorem unpack_toFloat {n : Nat} (pos : 0 < n) (small : n < 2 ^ 53) :
    n.toUInt64.toFloat.toModel.unpack = repacked (roundWithAccuracy .binary64 .positive
      (n <<< (52 - n.log2)) (-(52 - n.log2 : Nat)) .exact) := by
  have same : n.toUInt64.toNat = n := by
    simp [Nat.toUInt64]
    omega
  have short : n.log2 < 53 := (Nat.log2_lt pos.ne').mpr small
  have above : compare (n : Int) 0 = .gt := compare_gt_iff_gt.mpr (by omega)
  have target : Format.targetExponent .binary64 (totalExponent n 0) = n.log2 - 52 := by
    change max ((n.log2 : Int) + 1 + 0 - 53) (-1074) = _
    omega
  have far : (-((n.log2 : Int) - 52)).toNat = 52 - n.log2 := by omega
  change repacked (UnpackedFloat.normalize .binary64 (n.toUInt64.toNat : Int) 0 .positive) = _
  rw [same]
  simp only [UnpackedFloat.normalize, above, Int.toNat_natCast, UnpackedFloat.round,
    UnpackedFloat.decreaseExponent, target, zero_sub, far]

theorem bounded_toFloat {n : Nat} (small : n < 2 ^ 53) :
    Bounded 1 n.toUInt64.toFloat.toModel.unpack := by
  rcases Nat.eq_zero_or_pos n with rfl | pos
  · trivial
  · have short : n.log2 < 53 := (Nat.log2_lt pos.ne').mpr small
    have length : (n <<< (52 - n.log2)).log2 = 52 := by
      rw [Nat.shiftLeft_eq, log2_mul_two_pow pos.ne']
      omega
    have bounded := bounded_roundWithAccuracy .positive (n <<< (52 - n.log2)) (-(52 - n.log2 : Nat))
    rw [length] at bounded
    rw [unpack_toFloat pos small]
    exact bounded_repacked (bounded.mono (by omega)) (by decide) (by decide)

theorem bounded_mul_one {x : Float} (bounded : Bounded 1 x.toModel.unpack) :
    Bounded 2 (x * (1.0 : Float)).toModel.unpack := by
  have one : (1.0 : Float).toModel.unpack = .finite .positive (2 ^ 52) (-52) (by decide) := rfl
  change Bounded 2 (repacked (UnpackedFloat.mul .binary64 x.toModel.unpack
    (1.0 : Float).toModel.unpack))
  rw [one]
  refine bounded_repacked ?_ (by decide) (by decide)
  have known := parts x
  generalize x.toModel.unpack = u at known bounded
  cases known with
  | notANumber | infinity => contradiction
  | zero s => cases s <;> trivial
  | @finite s m e pos magnitude negative small full least =>
      have length : (m * 2 ^ 52).log2 < 105 := by
        rw [Nat.log2_lt (by positivity)]
        calc m * 2 ^ 52
          _ < 2 ^ 53 * 2 ^ 52 := by gcongr
          _ = 2 ^ 105 := by norm_num
      have one : e ≤ 1 := bounded
      exact (bounded_roundWithAccuracy _ (m * 2 ^ 52) (e + -52)).mono (by omega)

theorem ofInt_of_small {n : Nat} (small : n < 2 ^ 53) :
    Float.ofInt n = n.toUInt64.toFloat * (1.0 : Float) := by
  change Float.ofScientific n false 0 = _
  unfold Float.ofScientific
  rw [dif_pos ⟨small, by decide⟩]
  rfl

/-- Integers of at most 53 bits are doubles. -/
theorem isFinite_ofInt_of_small {n : Nat} (small : n < 2 ^ 53) : isFinite (Float.ofInt n) := by
  rw [ofInt_of_small small, isFinite_iff]
  exact (bounded_mul_one (bounded_toFloat small)).mono (by decide)

theorem unpack_ofInt_of_large {n : Nat} (large : 2 ^ 53 ≤ n) :
    (Float.ofInt n).toModel.unpack =
      repacked (roundWithAccuracy .binary64 .positive (n * 2 ^ 53) (-53) .exact) := by
  have scientific : Float.ofInt n = ⟨Float.Model.ofScientific n 0⟩ := by
    change Float.ofScientific n false 0 = _
    unfold Float.ofScientific
    rw [dif_neg fun small => absurd small.1 (by omega)]
    rfl
  rw [scientific]
  change repacked (UnpackedFloat.ofScientific .binary64 n 0) = _
  unfold UnpackedFloat.ofScientific
  have feasible : ¬ (0 : Int) < -(2 ^ 11 + (n.log2 : Int)) := by omega
  rw [dif_neg (by omega), if_neg (by decide), if_neg feasible, if_pos (by decide)]
  change repacked (roundWithAccuracy .binary64 .positive (n <<< 53 * 1) (-53) .exact) = _
  rw [mul_one, Nat.shiftLeft_eq]

theorem rounded_mul_two_pow (m k j : Nat) : rounded (m * 2 ^ j) (k + j) = rounded m k := by
  have positive : 0 < 2 ^ j := Nat.two_pow_pos j
  have scaled (a b : Nat) : 2 * (a * 2 ^ j) < b * 2 ^ j ↔ 2 * a < b := by
    rw [← mul_assoc, Nat.mul_lt_mul_right positive]
  have scaled' (a b : Nat) : 2 * (a * 2 ^ j) = b * 2 ^ j ↔ 2 * a = b := by
    rw [← mul_assoc, Nat.mul_left_inj positive.ne']
  unfold rounded
  rw [pow_add, Nat.mul_div_mul_right _ _ positive, Nat.mul_mod_mul_right]
  simp only [scaled, scaled']

/-- A long integer as a double: its first 53 bits, rounded, of which there may be one more then. -/
theorem unpack_ofInt {n : Nat} (large : 2 ^ 53 ≤ n) : ∃ (m k : Nat) (pos : 0 < m),
    (Float.ofInt n).toModel.unpack = repacked (.finite .positive m (n.log2 - 52 + k : Int) pos) ∧
      (k = 0 ∧ rounded n (n.log2 - 52) < 2 ^ 53 ∨ k = 1 ∧ rounded n (n.log2 - 52) = 2 ^ 53) := by
  have some : n ≠ 0 := by omega
  have long : 53 ≤ n.log2 := (Nat.le_log2 some).mpr large
  have first : excess (n * 2 ^ 53) (-53) = n.log2 - 52 + 53 := by
    rw [excess, log2_mul_two_pow some]
    omega
  have result := unpack_ofInt_of_large large
  rw [roundWithAccuracy_eq, first, rounded_mul_two_pow] at result
  have most : rounded n (n.log2 - 52) ≤ 2 ^ 53 := by
    have most := rounded_excess_le (n * 2 ^ 53) (-53)
    rwa [first, rounded_mul_two_pow] at most
  have least : 2 ^ 52 ≤ rounded n (n.log2 - 52) := by
    refine le_trans ?_ (le_rounded n _)
    rw [Nat.le_div_iff_mul_le (Nat.two_pow_pos _), ← pow_add,
      show 52 + (n.log2 - 52) = n.log2 by omega]
    exact Nat.log2_self_le some
  generalize rounded n (n.log2 - 52) = r at result most least ⊢
  have exponent : (-53 : Int) + (n.log2 - 52 + 53 : Nat) = n.log2 - 52 := by omega
  rw [exponent] at result
  rcases most.lt_or_eq with short | long'
  · have log : r.log2 = 52 := (Nat.log2_eq_iff (by omega)).mpr ⟨least, short⟩
    have fits : excess r (n.log2 - 52) = 0 := by
      rw [excess, log]
      omega
    rw [fits, shaped_of_pos _ _ (by rw [pow_zero, Nat.div_one]; omega)] at result
    exact ⟨_, 0, _, result, .inl ⟨rfl, short⟩⟩
  · have log : r.log2 = 53 := by rw [long', Nat.log2_two_pow]
    have fits : excess r (n.log2 - 52) = 1 := by
      rw [excess, log]
      omega
    rw [fits, shaped_of_pos _ _ (by rw [pow_one]; omega)] at result
    exact ⟨_, 1, _, result, .inr ⟨rfl, long'⟩⟩

/-- Integers of one bit more than `53 + p`: when their first 53 bits are rounded up to the next
power of two. -/
theorem rounded_eq_iff {n p : Nat} (log : n.log2 = 53 + p) :
    rounded n (p + 1) = 2 ^ 53 ↔ (2 ^ 54 - 1) * 2 ^ p ≤ n := by
  have below : n < 2 ^ (53 + p + 1) := log ▸ Nat.lt_log2_self
  have positive : 0 < 2 ^ p := Nat.two_pow_pos p
  rw [rounded, pow_succ']
  rw [pow_succ', pow_add] at below
  generalize 2 ^ p = a at below positive ⊢
  have quotient := Nat.div_add_mod n (2 * a)
  have rest : n % (2 * a) < 2 * a := Nat.mod_lt _ (by omega)
  have short : n / (2 * a) < 2 ^ 53 := Nat.div_lt_of_lt_mul (by omega)
  generalize n / (2 * a) = q at quotient short ⊢
  generalize n % (2 * a) = r at quotient rest ⊢
  rcases (Nat.le_sub_one_of_lt short).lt_or_eq with less | rfl
  · have product : 2 * a * q ≤ 2 * a * (2 ^ 53 - 2) := Nat.mul_le_mul_left _ (by omega)
    refine iff_of_false ?_ (by omega)
    split <;> omega
  · split <;> omega

theorem bounded_repacked_iff {s : Sign} {m : Nat} {e : Int} (pos : 0 < m) :
    Bounded 971 (repacked (.finite s m e pos)) ↔ e ≤ 971 := by
  refine ⟨fun bounded => ?_, fun fits => bounded_repacked fits (by decide) (by decide)⟩
  by_contra large
  rw [repacked_of_large pos (by omega)] at bounded
  exact bounded

/-- The least integer beyond all doubles, `2 ^ 1024 - 2 ^ 970`. From there on integers are rounded
to `2 ^ 1024` or more. -/
@[irreducible] def overflow : Nat := (2 ^ 54 - 1) * 2 ^ 970

theorem overflow_le_iff {n : Nat} : overflow ≤ n ↔ (2 ^ 54 - 1) * 2 ^ 970 ≤ n := by
  unfold overflow
  exact Iff.rfl

theorem mul_two_pow_bounds (p : Nat) :
    2 ^ (53 + p) ≤ (2 ^ 54 - 1) * 2 ^ p ∧ (2 ^ 54 - 1) * 2 ^ p ≤ 2 ^ (53 + p + 1) := by
  rw [Nat.add_right_comm, pow_add, pow_add]
  exact ⟨Nat.mul_le_mul_right _ (by decide), Nat.mul_le_mul_right _ (by decide)⟩

theorem le_overflow : 2 ^ (53 + 970) ≤ overflow := by
  unfold overflow
  exact (mul_two_pow_bounds 970).1

theorem overflow_le : overflow ≤ 2 ^ (53 + 970 + 1) :=
  overflow_le_iff.mpr (mul_two_pow_bounds 970).2

/-- Integers are doubles, if only rounded ones, as long as they do not overflow. -/
theorem isFinite_ofInt_iff (n : Nat) : isFinite (Float.ofInt n) = true ↔ n < overflow := by
  have high : 2 ^ 53 ≤ overflow := by
    refine le_trans ?_ le_overflow
    rw [pow_add]
    exact Nat.le_mul_of_pos_right _ (pow_pos Nat.two_pos 970)
  by_cases small : n < 2 ^ 53
  · exact iff_of_true (isFinite_ofInt_of_small small) (by omega)
  have some : n ≠ 0 := by omega
  obtain ⟨m, k, pos, unpacked, rounds⟩ := unpack_ofInt (not_lt.mp small)
  have long : 53 ≤ n.log2 := (Nat.le_log2 some).mpr (not_lt.mp small)
  rw [isFinite_iff, unpacked, bounded_repacked_iff pos]
  rcases lt_trichotomy n.log2 (53 + 970) with shorter | log | longer
  · have below : n < 2 ^ (53 + 970) := lt_two_pow some shorter
    refine iff_of_true ?_ (below.trans_le le_overflow)
    omega
  · have last : n.log2 - 52 = 970 + 1 := by omega
    rw [last] at rounds
    rcases rounds with ⟨rfl, short⟩ | ⟨rfl, full⟩
    · refine iff_of_true (by omega) (not_le.mp fun beyond => ?_)
      exact short.ne ((rounded_eq_iff log).mpr (overflow_le_iff.mp beyond))
    · refine iff_of_false (by omega) (not_lt.mpr ?_)
      exact overflow_le_iff.mpr ((rounded_eq_iff log).mp full)
  · have above : 2 ^ (53 + 970 + 1) ≤ n := two_pow_le some longer
    refine iff_of_false ?_ (not_lt.mpr (overflow_le.trans above))
    omega

theorem isFinite_neg (x : Float) : isFinite x.neg = true ↔ isFinite x = true := by
  rw [isFinite_iff, isFinite_iff]
  change Bounded 971 (repacked x.toModel.unpack.neg) ↔ Bounded 971 x.toModel.unpack
  have known := parts x
  generalize x.toModel.unpack = u at known
  cases known with
  | infinity s => cases s <;> exact iff_of_false id id
  | notANumber => exact iff_of_false id id
  | zero s => exact iff_of_true (bounded_repacked trivial (by decide) le_rfl) trivial
  | finite _ _ _ _ _ _ small => exact iff_of_true (bounded_repacked small (by decide) le_rfl) small

/-- The sign of an integer does not matter for that. -/
theorem isFinite_ofInt_iff_natAbs (i : Int) :
    isFinite (Float.ofInt i) = true ↔ i.natAbs < overflow := by
  cases i with
  | ofNat n => exact isFinite_ofInt_iff n
  | negSucc n => exact (isFinite_neg _).trans (isFinite_ofInt_iff (n + 1))

end EventStream.Binary64
